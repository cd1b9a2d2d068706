import EnvelopeWire.Text.Hex
import Mathlib.Data.List.Basic

/-!
# Quoted text has one reading

Text between quotes can hold anything, quotes and things that look like escapes among it. There is
one way to read it all the same: no escape starts with the quote that ends the text, and no escape
is the start of another one. So where quoted text ends is seen from the text itself, and what stands
behind it can be read on its own. Nothing that is quoted leaves its line, because every control
character is escaped.

* `Text.quoted_append_inj`: the text and what stands behind it are determined.
* `Text.shown_quoted`: there are no control characters in quoted text.
-/

namespace EnvelopeWire

/-- A separator ends the first part of a list, if the part does not hold it. -/
theorem append_cons_inj_of_notMem {α : Type} {a : α} {x x' z z' : List α} (hx : a ∉ x)
    (hx' : a ∉ x') (h : x ++ a :: z = x' ++ a :: z') : x = x' ∧ z = z' := by
  induction x generalizing x' with
  | nil =>
    rcases x' with _ | ⟨first, x'⟩
    · exact ⟨rfl, (List.cons.inj h).2⟩
    · exact absurd ((List.cons.inj h).1 ▸ List.mem_cons_self) hx'
  | cons first x ih =>
    rcases x' with _ | ⟨first', x'⟩
    · exact absurd ((List.cons.inj h).1 ▸ List.mem_cons_self) hx
    · obtain ⟨rfl, hrest⟩ := List.cons.inj h
      obtain ⟨rfl, rfl⟩ := ih (fun hmem => hx (.tail _ hmem)) (fun hmem => hx' (.tail _ hmem)) hrest
      exact ⟨rfl, rfl⟩

namespace Text

/-! ### Digits -/

section Digits

variable {b : Nat}

/-- A number is written in digits. -/
theorem exists_digit_of_mem_toDigits (hb : 1 < b) {n : Nat} {c : Char}
    (hc : c ∈ Nat.toDigits b n) : ∃ d < b, c = Nat.digitChar d := by
  induction n using Nat.strongRecOn with
  | ind n ih =>
    rw [Nat.toDigits_eq_if hb] at hc
    split at hc
    next hlt =>
      exact ⟨n, hlt, List.mem_singleton.mp hc⟩
    next hle =>
      rcases List.mem_append.mp hc with hinit | hlast
      · exact ih (n / b) (Nat.div_lt_self (by omega) hb) hinit
      · exact ⟨n % b, Nat.mod_lt n (by omega), List.mem_singleton.mp hlast⟩

private theorem digitChar_inj : ∀ m < 16, ∀ n < 16, Nat.digitChar m = Nat.digitChar n → m = n :=
  by decide

/-- A number is told from its digits. -/
theorem toDigits_inj (hb : 1 < b) (hb' : b ≤ 16) {m n : Nat}
    (h : Nat.toDigits b m = Nat.toDigits b n) : m = n := by
  have hdigit {m n : Nat} (hm : m < b) (hn : n < b) (h : [m.digitChar] = [n.digitChar]) : m = n :=
    digitChar_inj m (by omega) n (by omega) (List.singleton_inj.mp h)
  have hlast {l : Nat} {c d : Char} (h : [] ++ [c] = Nat.toDigits b l ++ [d]) : False :=
    Nat.toDigits_ne_nil (List.append_inj' h rfl).1.symm
  induction m using Nat.strongRecOn generalizing n with
  | ind m ih =>
    rw [Nat.toDigits_eq_if hb (n := m), Nat.toDigits_eq_if hb (n := n)] at h
    split at h <;> split at h
    next hm hn => exact hdigit hm hn h
    next => exact (hlast h).elim
    next => exact (hlast h.symm).elim
    next hm hn =>
      obtain ⟨hinit, hend⟩ := List.append_inj' h rfl
      have hdiv := ih (m / b) (Nat.div_lt_self (by omega) hb) hinit
      have hmod := hdigit (Nat.mod_lt m (by omega)) (Nat.mod_lt n (by omega)) hend
      rw [← Nat.div_add_mod m b, ← Nat.div_add_mod n b, hdiv, hmod]

end Digits

/-! ### Control characters -/

/-- The control characters, the line feed and the carriage return among them. -/
def IsControl (c : Char) : Prop := c.toNat < 0x20 ∨ 0x7f ≤ c.toNat ∧ c.toNat < 0xa0

instance : DecidablePred IsControl := fun c =>
  inferInstanceAs (Decidable (c.toNat < 0x20 ∨ 0x7f ≤ c.toNat ∧ c.toNat < 0xa0))

/-- This is decided by going through `chars`, and not through all the characters that there are. -/
instance (chars : List Char) : Decidable (∀ c ∈ chars, ¬ IsControl c) :=
  List.decidableBAll (fun c => ¬ IsControl c) chars

/-- A text without control characters: it stays on its line, and all of it is seen. -/
def Shown (s : String) : Prop := ∀ c ∈ s.toList, ¬ IsControl c

instance (s : String) : Decidable (Shown s) :=
  inferInstanceAs (Decidable (∀ c ∈ s.toList, ¬ IsControl c))

private theorem not_isControl_digitChar : ∀ d < 16, ¬ IsControl (Nat.digitChar d) := by decide

theorem shown_ofList {chars : List Char} :
    Shown (String.ofList chars) ↔ ∀ c ∈ chars, ¬ IsControl c := by
  rw [Shown, String.toList_ofList]

/-- A text is shown when both of its parts are. -/
@[simp]
theorem shown_append {s t : String} : Shown (s ++ t) ↔ Shown s ∧ Shown t := by
  simp only [Shown, String.toList_append, List.forall_mem_append]

@[simp]
theorem shown_nat (n : Nat) : Shown (toString n) := by
  rw [Nat.toString_eq_ofList_toDigits, shown_ofList]
  intro c hc
  obtain ⟨d, hd, rfl⟩ := exists_digit_of_mem_toDigits (by decide) hc
  exact not_isControl_digitChar d (by omega)

@[simp]
theorem shown_int (n : Int) : Shown (toString n) := by
  have hrepr (n : Nat) : Shown n.repr := shown_nat n
  rw [Int.toString_eq_repr, Int.repr_eq_if]
  split
  next => exact hrepr _
  next => exact shown_append.mpr ⟨by decide, hrepr _⟩

/-! ### Bytes -/

/-- A byte is written in digits. -/
theorem exists_digit_of_mem_byte {b : UInt8} {c : Char} (hc : c ∈ (Hex.byte b).toList) :
    ∃ n < 16, c = Char.ofNat (Hex.digit n).toNat := by
  have hb : b.toNat < 256 := b.toNat_lt
  rw [Hex.byte, Hex.encode, String.toList_ofList, Hex.digits, List.flatMap_cons,
    List.flatMap_nil, List.append_nil, List.map_cons, List.map_cons, List.map_nil, List.mem_cons,
    List.mem_singleton] at hc
  rcases hc with rfl | rfl
  · exact ⟨b.toNat / 16, by omega, rfl⟩
  · exact ⟨b.toNat % 16, by omega, rfl⟩

@[simp]
theorem shown_byte (b : UInt8) : Shown (Hex.byte b) := by
  have hdigit : ∀ n < 16, ¬ IsControl (Char.ofNat (Hex.digit n).toNat) := by decide
  intro c hc
  obtain ⟨n, hn, rfl⟩ := exists_digit_of_mem_byte hc
  exact hdigit n hn

/-- Bytes are told from their digits. -/
theorem byte_inj {b c : UInt8} (h : Hex.byte b = Hex.byte c) : b = c := by
  have hchar : Function.Injective fun d : UInt8 => Char.ofNat d.toNat := by
    intro d d' h
    have hnat : ∀ n < 256, (Char.ofNat n).toNat = n := by decide +kernel
    have hchars := congrArg Char.toNat h
    rw [hnat _ d.toNat_lt, hnat _ d'.toNat_lt] at hchars
    exact UInt8.toNat_inj.mp hchars
  have hdigits := List.map_injective_iff.mpr hchar (String.ofList_injective h)
  have hdecode := congrArg Hex.decode hdigits
  rw [Hex.decode_digits, Hex.decode_digits] at hdecode
  exact List.singleton_inj.mp (Except.ok.inj hdecode)

/-! ### Escapes -/

/-- The characters that are escaped by a letter, each with its letter. -/
private def lettered : List (Char × Char) :=
  [('\x22', '\x22'), ('\\', '\\'), ('\x00', '0'), ('\t', 't'), ('\n', 'n'), ('\r', 'r')]

/-- What can stand for a character between double quotes. -/
private inductive Escape : Char → List Char → Prop
  | letter {c letter : Char} (h : (c, letter) ∈ lettered) : Escape c ['\\', letter]
  | number (c : Char) :
    Escape c ('\\' :: 'u' :: '\x7b' :: (Nat.toDigits 16 c.toNat ++ ['\x7d']))
  | plain {c : Char} (hquote : c ≠ '\x22') (hbackslash : c ≠ '\\') (hshown : ¬ IsControl c) :
    Escape c [c]

private theorem escape_of_notMem {c : Char} (h : c ∉ lettered.map Prod.fst) :
    escape '\x22' c = if isHidden c then
      ['\\', 'u', '\x7b'] ++ Nat.toDigits 16 c.toNat ++ ['\x7d'] else [c] := by
  simp only [lettered, List.map_cons, List.map_nil, List.mem_cons, List.not_mem_nil, or_false,
    not_or] at h
  obtain ⟨hquote, hbackslash, hzero, htab, hfeed, hreturn⟩ := h
  rw [escape, if_neg hquote]
  exacts [hbackslash, hzero, htab, hfeed, hreturn]

/-- Every character is escaped in one of the ways there are. -/
private theorem escapes (c : Char) : Escape c (escape '\x22' c) := by
  by_cases hlettered : c ∈ lettered.map Prod.fst
  · obtain ⟨entry, hentry, rfl⟩ := List.mem_map.mp hlettered
    have hletter : ∀ entry ∈ lettered, escape '\x22' entry.1 = ['\\', entry.2] := by decide
    rw [hletter entry hentry]
    exact .letter hentry
  · rw [escape_of_notMem hlettered]
    split
    next => exact .number c
    next hvisible =>
      refine .plain ?_ ?_ fun hcontrol => hvisible (isHidden_of_control hcontrol)
      · rintro rfl
        exact hlettered (by decide)
      · rintro rfl
        exact hlettered (by decide)

namespace Escape

variable {c d : Char} {x y r r' : List Char}

/-- The quote that ends a text is not the start of an escape. -/
private theorem head_ne (h : Escape c x) : ∃ first rest, x = first :: rest ∧ first ≠ '\x22' := by
  cases h with
  | letter => exact ⟨_, _, rfl, by decide⟩
  | number => exact ⟨_, _, rfl, by decide⟩
  | plain hquote => exact ⟨_, _, rfl, hquote⟩

/-- No escape holds a control character. -/
private theorem not_isControl (h : Escape c x) : ∀ a ∈ x, ¬ IsControl a := by
  intro a ha
  cases h with
  | letter hletter =>
    have hletters : ∀ entry ∈ lettered, ∀ a ∈ ['\\', entry.2], ¬ IsControl a := by decide
    exact hletters _ hletter a ha
  | number =>
    have hframe : ∀ a ∈ ['\\', 'u', '\x7b', '\x7d'], ¬ IsControl a := by decide
    simp only [List.mem_cons, List.mem_append, List.not_mem_nil, or_false] at ha hframe
    rcases ha with ha | ha | ha | ha | ha
    · exact hframe a (.inl ha)
    · exact hframe a (.inr (.inl ha))
    · exact hframe a (.inr (.inr (.inl ha)))
    · obtain ⟨digit, hdigit, rfl⟩ := exists_digit_of_mem_toDigits (by decide) ha
      exact not_isControl_digitChar digit hdigit
    · exact hframe a (.inr (.inr (.inr ha)))
  | plain _ _ hshown => exact List.mem_singleton.mp ha ▸ hshown

/-- **No escape is the start of another**: the character and what stands behind its escape are
determined. -/
theorem append_inj (hx : Escape c x) (hy : Escape d y) (h : x ++ r = y ++ r') :
    c = d ∧ r = r' := by
  have hletters : ∀ entry ∈ lettered, ∀ entry' ∈ lettered, entry.2 = entry'.2 → entry = entry' := by
    decide
  have hnumber : ∀ entry ∈ lettered, entry.2 ≠ 'u' := by decide
  have hclose (n : Nat) : '\x7d' ∉ Nat.toDigits 16 n := by
    intro hmem
    obtain ⟨digit, hdigit, heq⟩ := exists_digit_of_mem_toDigits (by decide) hmem
    have hne : ∀ d < 16, '\x7d' ≠ Nat.digitChar d := by decide
    exact hne digit hdigit heq
  cases hx with
  | letter hc =>
    cases hy with
    | letter hd =>
      obtain ⟨hletter, rfl⟩ := List.cons.inj (List.cons.inj h).2
      obtain ⟨rfl, -⟩ := Prod.mk.inj (hletters _ hc _ hd hletter)
      exact ⟨rfl, rfl⟩
    | number => exact absurd (List.cons.inj (List.cons.inj h).2).1 (hnumber _ hc)
    | plain _ hbackslash => exact absurd (List.cons.inj h).1.symm hbackslash
  | number =>
    cases hy with
    | letter hd => exact absurd (List.cons.inj (List.cons.inj h).2).1.symm (hnumber _ hd)
    | number =>
      have hdigits : Nat.toDigits 16 c.toNat ++ ['\x7d'] ++ r
          = Nat.toDigits 16 d.toNat ++ ['\x7d'] ++ r' :=
        (List.cons.inj (List.cons.inj (List.cons.inj h).2).2).2
      rw [List.append_assoc, List.append_assoc] at hdigits
      obtain ⟨hvalue, rfl⟩ := append_cons_inj_of_notMem (hclose _) (hclose _) hdigits
      exact ⟨Char.toNat_inj.mp (toDigits_inj (by decide) (by decide) hvalue), rfl⟩
    | plain _ hbackslash => exact absurd (List.cons.inj h).1.symm hbackslash
  | plain _ hbackslash =>
    cases hy with
    | letter => exact absurd (List.cons.inj h).1 hbackslash
    | number => exact absurd (List.cons.inj h).1 hbackslash
    | plain => exact List.cons.inj h

end Escape

/-! ### Quoted text -/

/-- The text before a closing quote, and what stands behind the quote, are determined. -/
private theorem flatMap_escape_inj {s t r r' : List Char}
    (h : s.flatMap (escape '\x22') ++ '\x22' :: r = t.flatMap (escape '\x22') ++ '\x22' :: r') :
    s = t ∧ r = r' := by
  induction s generalizing t with
  | nil =>
    rcases t with _ | ⟨d, t⟩
    · exact ⟨rfl, (List.cons.inj h).2⟩
    · obtain ⟨first, rest, heq, hne⟩ := (escapes d).head_ne
      rw [List.flatMap_cons, heq] at h
      exact absurd (List.cons.inj h).1.symm hne
  | cons c s ih =>
    rcases t with _ | ⟨d, t⟩
    · obtain ⟨first, rest, heq, hne⟩ := (escapes c).head_ne
      rw [List.flatMap_cons, heq] at h
      exact absurd (List.cons.inj h).1 hne
    · rw [List.flatMap_cons, List.flatMap_cons, List.append_assoc, List.append_assoc] at h
      obtain ⟨rfl, hrest⟩ := (escapes c).append_inj (escapes d) h
      obtain ⟨rfl, rfl⟩ := ih hrest
      exact ⟨rfl, rfl⟩

/-- **Quoted text has one reading**: the text, and what stands behind it, are determined. -/
theorem quoted_append_inj {s t r r' : String} (h : quoted s ++ r = quoted t ++ r') :
    s = t ∧ r = r' := by
  have hchars := congrArg String.toList h
  simp only [quoted, enclose, String.toList_append, String.toList_ofList, List.cons_append,
    List.append_assoc, List.nil_append] at hchars
  obtain ⟨htext, hrest⟩ := flatMap_escape_inj (List.cons.inj hchars).2
  exact ⟨String.toList_inj.mp htext, String.toList_inj.mp hrest⟩

/-- Different texts are quoted differently. -/
theorem quoted_inj {s t : String} (h : quoted s = quoted t) : s = t := by
  have hends : quoted s ++ "" = quoted t ++ "" := congrArg (· ++ "") h
  exact (quoted_append_inj hends).1

@[simp]
theorem shown_quoted (s : String) : Shown (quoted s) := by
  rw [quoted, enclose, shown_ofList]
  intro c hc
  rw [List.mem_append, List.mem_cons, List.mem_flatMap, List.mem_singleton] at hc
  rcases hc with (rfl | ⟨d, -, hd⟩) | rfl
  · decide
  · exact (escapes d).not_isControl c hd
  · decide

end Text

end EnvelopeWire
