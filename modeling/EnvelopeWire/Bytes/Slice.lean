import EnvelopeWire.Bytes.LittleEndian

/-!
# Slices of a byte string

`Bytes.slice? b position size` is the range of `b` that starts at `position` and holds `size`
bytes, and nothing when that range leaves `b`.

* `Bytes.slice?_eq_some_iff`: a slice exists exactly when its end lies within the bytes.
* `Bytes.slice?_append_left`, `Bytes.slice?_append_right`: bytes added behind a slice do not
  change it, and bytes put in front only shift it.
-/

namespace EnvelopeWire

/-- The `size` bytes of `b` from `position` on, if they all lie within `b`. -/
def Bytes.slice? (b : Bytes) (position size : Nat) : Option Bytes :=
  if position + size ≤ b.length then some ((b.drop position).take size) else none

/-- A slice is there exactly when its range is. -/
theorem Bytes.slice?_eq_some_iff {b s : Bytes} {position size : Nat} :
    b.slice? position size = some s ↔
      position + size ≤ b.length ∧ (b.drop position).take size = s := by
  simp [Bytes.slice?]

/-- A slice is missing exactly when its range ends behind the bytes. -/
theorem Bytes.slice?_eq_none_iff {b : Bytes} {position size : Nat} :
    b.slice? position size = none ↔ b.length < position + size := by
  simp [Bytes.slice?]

/-- What comes behind does not change a slice. -/
theorem Bytes.slice?_append_left {b s : Bytes} {position size : Nat} (tail : Bytes)
    (h : b.slice? position size = some s) : Bytes.slice? (b ++ tail) position size = some s := by
  obtain ⟨hle, rfl⟩ := Bytes.slice?_eq_some_iff.mp h
  refine Bytes.slice?_eq_some_iff.mpr ⟨by simp only [List.length_append]; omega, ?_⟩
  rw [List.drop_append_of_le_length (by omega), List.take_append_of_le_length]
  simp only [List.length_drop]
  omega

/-- What comes in front moves a slice and does not change it. -/
theorem Bytes.slice?_append_right (front b : Bytes) (position size : Nat) :
    Bytes.slice? (front ++ b) (front.length + position) size = b.slice? position size := by
  simp [Bytes.slice?, Nat.add_assoc]

end EnvelopeWire
