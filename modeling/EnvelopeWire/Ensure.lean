/-!
# Conditions in a computation that may fail

`ensure p e` goes on when `p` holds and fails with `e` otherwise. The lemmas here are how proofs
take apart a chain of steps: a chain succeeds exactly when each of its steps does.
-/

namespace EnvelopeWire

/-- Goes on when `p` holds and fails with `e` otherwise. -/
def ensure {ε : Type} (p : Prop) [Decidable p] (e : ε) : Except ε Unit :=
  if p then .ok () else .error e

variable {ε α β : Type}

@[simp]
theorem ensure_eq_ok_iff {p : Prop} [Decidable p] {e : ε} {u : Unit} :
    ensure p e = .ok u ↔ p := by
  by_cases h : p <;> simp [ensure, h]

@[simp]
theorem ensure_eq_error_iff {p : Prop} [Decidable p] {e e' : ε} :
    ensure p e = .error e' ↔ ¬ p ∧ e = e' := by
  by_cases h : p <;> simp [ensure, h]

/-- Two steps succeed exactly when the first does and the second does with its result. -/
theorem bind_eq_ok_iff {x : Except ε α} {f : α → Except ε β} {b : β} :
    x >>= f = .ok b ↔ ∃ a, x = .ok a ∧ f a = .ok b := by
  cases x <;> simp [bind, Except.bind]

/-- Two steps fail exactly when the first does, or the second does with its result. -/
theorem bind_eq_error_iff {x : Except ε α} {f : α → Except ε β} {e : ε} :
    x >>= f = .error e ↔ x = .error e ∨ ∃ a, x = .ok a ∧ f a = .error e := by
  cases x <;> simp [bind, Except.bind]

theorem map_eq_ok_iff {x : Except ε α} {f : α → β} {b : β} :
    x.map f = .ok b ↔ ∃ a, x = .ok a ∧ f a = b := by
  cases x <;> simp [Except.map]

theorem map_eq_error_iff {x : Except ε α} {f : α → β} {e : ε} :
    x.map f = .error e ↔ x = .error e := by
  cases x <;> simp [Except.map]

/-- Errors may be seen as others without changing what succeeds. -/
theorem mapError_eq_ok_iff {ε' : Type} {x : Except ε α} {f : ε → ε'} {a : α} :
    x.mapError f = .ok a ↔ x = .ok a := by
  constructor <;> intro h <;> cases x <;> cases h <;> rfl

theorem toOption_eq_some_iff {x : Except ε α} {a : α} : x.toOption = some a ↔ x = .ok a := by
  cases x <;> simp [Except.toOption]

/-- A test of what a computation gives, where it can be evaluated, shows that it gives it. -/
theorem exists_ok_of_any {x : Except ε α} {p : α → Bool} (h : x.toOption.any p = true) :
    ∃ a, x = .ok a ∧ p a = true := by
  cases x with
  | error e => cases h
  | ok a => exact ⟨a, rfl, h⟩

/-- Where every result needs `p`, and `p` does not hold, there is an error. -/
theorem exists_error_of_not {x : Except ε α} {p : Prop} (h : ∀ a, x = .ok a → p) (hp : ¬ p) :
    ∃ e, x = .error e := by
  cases x with
  | error e => exact ⟨e, rfl⟩
  | ok a => exact absurd (h a rfl) hp

/-- Two computations that agree step by step agree as a whole. -/
theorem bind_map_eq {α' β' : Type} {x : Except ε α} {y : Except ε α'} {φ : α → α'}
    {f : α → Except ε β} {g : α' → Except ε β'} {ψ : β → β'} (hx : x.map φ = y)
    (hf : ∀ a, x = .ok a → (f a).map ψ = g (φ a)) : (x >>= f).map ψ = y >>= g := by
  subst hx
  cases x with
  | error e => rfl
  | ok a => exact hf a rfl

/-- The same when the first step is the same one. -/
theorem bind_map_congr {β' : Type} {x : Except ε α} {f : α → Except ε β}
    {g : α → Except ε β'} {ψ : β → β'} (hf : ∀ a, x = .ok a → (f a).map ψ = g a) :
    (x >>= f).map ψ = x >>= g := by
  cases x with
  | error e => rfl
  | ok a => exact hf a rfl

/-- A computation goes on the same way when it does so after every result it may get to. -/
theorem bind_congr_ok {x : Except ε α} {f g : α → Except ε β}
    (h : ∀ a, x = .ok a → f a = g a) : x >>= f = x >>= g := by
  cases x with
  | error e => rfl
  | ok a => exact h a rfl

end EnvelopeWire
