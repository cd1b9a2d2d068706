import EnvelopeWire.Ensure
import EnvelopeWire.Table.Read

/-!
# Bytes that stand in a buffer

A buffer is written back to front, so a place in it is named by the number of bytes from there to
the end. `w.StandsAt place s` says that `s` starts at `place` in `w`. Bytes put in front of a buffer
leave everything that stands in it where it is, and a finished buffer is read from the front, at
`w.length - place`.

* `Bytes.StandsAt.of_suffix`: what stands somewhere stays there.
* `Bytes.StandsAt.left`, `Bytes.StandsAt.right`: the parts of what stands somewhere stand too.
* `Bytes.StandsAt.read`: what stands somewhere is what is read there.
-/

namespace EnvelopeWire

namespace Bytes

/-- `s` stands in `w`, and from its first byte to the end of `w` there are `place` bytes. -/
def StandsAt (w : Bytes) (place : Nat) (s : Bytes) : Prop :=
  ∃ front back : Bytes, w = front ++ (s ++ back) ∧ s.length + back.length = place

/-- Bytes in front stand at the whole length. -/
theorem standsAt_front (s back : Bytes) : StandsAt (s ++ back) (s ++ back).length s :=
  ⟨[], back, rfl, List.length_append.symm⟩

/-- Bytes that are compared with those at a place stand there. -/
theorem standsAt_of_isPrefixOf {w s : Bytes} {place : Nat} (hplace : place ≤ w.length)
    (h : s.isPrefixOf (w.drop (w.length - place)) = true) : w.StandsAt place s := by
  obtain ⟨back, hback⟩ := List.isPrefixOf_iff_prefix.mp h
  refine ⟨w.take (w.length - place), back, ?_, ?_⟩
  · rw [hback, List.take_append_drop]
  · rw [← List.length_append, hback, List.length_drop]
    omega

namespace StandsAt

variable {w s t : Bytes} {place : Nat}

/-- What stands goes on standing when more is written in front. -/
theorem of_suffix {w' : Bytes} (h : w.StandsAt place s) (hw : w <:+ w') : w'.StandsAt place s := by
  obtain ⟨front, back, rfl, hplace⟩ := h
  obtain ⟨more, rfl⟩ := hw
  exact ⟨more ++ front, back, (List.append_assoc _ _ _).symm, hplace⟩

/-- The first part of what stands somewhere stands there. -/
theorem left (h : w.StandsAt place (s ++ t)) : w.StandsAt place s := by
  obtain ⟨front, back, rfl, hplace⟩ := h
  refine ⟨front, t ++ back, by rw [List.append_assoc], ?_⟩
  rw [← hplace, List.length_append, List.length_append, Nat.add_assoc]

/-- The second part stands behind the first. -/
theorem right (h : w.StandsAt place (s ++ t)) : w.StandsAt (place - s.length) t := by
  obtain ⟨front, back, rfl, hplace⟩ := h
  refine ⟨front ++ s, back, by simp only [List.append_assoc], ?_⟩
  rw [List.length_append] at hplace
  omega

/-- Nothing stands in front of the buffer. -/
theorem place_le (h : w.StandsAt place s) : place ≤ w.length := by
  obtain ⟨front, back, rfl, hplace⟩ := h
  rw [List.length_append, List.length_append, hplace]
  exact Nat.le_add_left _ _

/-- What stands at a place ends at or before the end of the buffer. -/
theorem length_le (h : w.StandsAt place s) : s.length ≤ place := by
  obtain ⟨front, back, -, hplace⟩ := h
  omega

/-- What stands somewhere is what the bytes from there on start with. -/
theorem drop_eq (h : w.StandsAt place s) : ∃ back, w.drop (w.length - place) = s ++ back := by
  obtain ⟨front, back, rfl, hplace⟩ := h
  have hfront : (front ++ (s ++ back)).length - place = front.length := by
    rw [List.length_append, List.length_append, hplace, Nat.add_sub_cancel]
  exact ⟨back, by rw [hfront, List.drop_left]⟩

/-- What stands somewhere is read there. -/
theorem read (h : w.StandsAt place s) : w.read (w.length - place) s.length = .ok s := by
  have hplace := h.place_le
  have hlength := h.length_le
  obtain ⟨front, back, rfl, hsum⟩ := h
  have hfront : (front ++ (s ++ back)).length - place = front.length := by
    rw [List.length_append, List.length_append, hsum, Nat.add_sub_cancel]
  refine Bytes.read_eq_ok_iff.mpr ⟨by omega, ?_⟩
  rw [hfront, List.drop_left, List.take_left]

/-- A part is read where it is in the whole. -/
theorem read_right (h : w.StandsAt place (s ++ t)) :
    w.read (w.length - place + s.length) t.length = .ok t := by
  have hplace := h.place_le
  have hlength := h.length_le
  rw [List.length_append] at hlength
  have hposition : w.length - place + s.length = w.length - (place - s.length) := by omega
  rw [hposition]
  exact h.right.read

/-- A scalar that stands at a place is read there. -/
theorem readScalar {type : ScalarType} {value : type.Value}
    (h : w.StandsAt place (type.encode value)) :
    EnvelopeWire.readScalar type w (w.length - place) = .ok value := by
  have hread := h.read
  rw [ScalarType.length_encode] at hread
  rw [EnvelopeWire.readScalar, hread]
  exact congrArg Except.ok (type.decode_encode value)

theorem readScalar_right {type : ScalarType} {value : type.Value}
    (h : w.StandsAt place (s ++ type.encode value)) :
    EnvelopeWire.readScalar type w (w.length - place + s.length) = .ok value := by
  have hread := h.read_right
  rw [ScalarType.length_encode] at hread
  rw [EnvelopeWire.readScalar, hread]
  exact congrArg Except.ok (type.decode_encode value)

end StandsAt

end Bytes

end EnvelopeWire
