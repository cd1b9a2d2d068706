import EnvelopeWire.Text.Parser

/-!
# What parsers give

A parser is put together from smaller ones, and so is what is known of everything that it gives.

* `Parser.Gives`: all results of a parser have a property.
* `Parser.Gives.bind`, `Parser.Gives.orElse`, `Parser.Gives.many`: the ways to put parsers together.
-/

namespace EnvelopeWire.Parser

variable {α β : Type} {p q : Parser α} {P : α → Prop} {Q : β → Prop}

/-- All results of `p` have the property `P`. -/
def Gives (p : Parser α) (P : α → Prop) : Prop := ∀ s a rest, p s = some (a, rest) → P a

namespace Gives

/-- Nothing is claimed of any result. -/
theorem trivial : p.Gives fun _ => True := fun _ _ _ _ => True.intro

/-- A result that takes no text. -/
theorem pure {a : α} (h : P a) : Gives (pure a) P := by
  intro s b rest hrun
  cases hrun
  exact h

/-- A parser that always fails gives nothing. -/
theorem failure : Gives (failure : Parser α) P := by
  intro s b rest hrun
  cases hrun

/-- Parsers in sequence: what the second one gives may depend on what the first one gave. -/
theorem bind {f : α → Parser β} (h : p.Gives P) (hf : ∀ a, P a → (f a).Gives Q) :
    (p >>= f).Gives Q := by
  intro s b rest hrun
  obtain ⟨⟨a, middle⟩, hfirst, hsecond⟩ := Option.bind_eq_some_iff.mp hrun
  exact hf a (h s a middle hfirst) middle b rest hsecond

/-- What is taken first, and dropped, does not matter. -/
theorem after {q : Parser β} (h : q.Gives Q) : (p >>= fun _ => q).Gives Q :=
  trivial.bind fun _ _ => h

/-- What is taken next, and dropped, does not matter. -/
theorem before {q : Parser β} (h : p.Gives P) : (p <* q).Gives P :=
  h.bind fun _ ha => after (pure ha)

/-- A result that is made of another one. -/
private theorem map {f : α → β} (h : p.Gives P) (hf : ∀ a, P a → Q (f a)) : (f <$> p).Gives Q := by
  intro s b rest hrun
  obtain ⟨⟨a, middle⟩, hfirst, heq⟩ := Option.bind_eq_some_iff.mp hrun
  obtain rfl : f a = b := congrArg Prod.fst (Option.some.inj heq)
  exact hf a (h s a middle hfirst)

/-- Either parser may give the result. -/
theorem orElse (hp : p.Gives P) (hq : q.Gives P) : (p <|> q).Gives P := by
  intro s a rest hrun
  have hrun : (p s <|> q s) = some (a, rest) := hrun
  cases hfirst : p s with
  | some result =>
    rw [hfirst] at hrun
    exact hp s a rest (hfirst.trans hrun)
  | none =>
    rw [hfirst] at hrun
    exact hq s a rest hrun

/-- What is there, if anything is. -/
theorem optional (h : p.Gives P) : (optional p).Gives fun found => ∀ a ∈ found, P a :=
  orElse (h.map fun _ ha _ hb => Option.some.inj hb ▸ ha) (pure nofun)

/-- The induction is on the text that is left, which every further result shortens. -/
private theorem manyFrom (h : p.Gives P) (s : List Char) : ∀ a ∈ (manyFrom p s).1, P a := by
  fun_induction Parser.manyFrom p s with
  | case1 s hnone => exact List.forall_mem_nil _
  | case2 s a rest hfirst hlt as rest' hmore ih =>
    exact List.forall_mem_cons.mpr ⟨h s a rest hfirst, by rwa [hmore] at ih⟩
  | case3 s a rest hfirst hle => exact List.forall_mem_singleton.mpr (h s a rest hfirst)

/-- Each of many results. -/
theorem many (h : p.Gives P) : (many p).Gives fun as => ∀ a ∈ as, P a := by
  intro s as rest hrun
  have hall := h.manyFrom s
  rwa [Option.some.inj hrun] at hall

/-- Each of the results between separators. -/
theorem sepBy1 (h : p.Gives P) {separator : Parser Unit} :
    (sepBy1 p separator).Gives fun as => ∀ a ∈ as, P a := by
  have hmore : (separator *> p).Gives P := after h
  exact h.bind fun a ha => hmore.many.bind fun as has => pure (List.forall_mem_cons.mpr ⟨ha, has⟩)

theorem sepBy (h : p.Gives P) {separator : Parser Unit} :
    (sepBy p separator).Gives fun as => ∀ a ∈ as, P a :=
  orElse h.sepBy1 (pure (List.forall_mem_nil _))

end Gives

end EnvelopeWire.Parser
