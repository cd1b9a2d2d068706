import EnvelopeWire.Bytes.LittleEndian

/-!
# Text as bytes

Text is stored in UTF-8. `utf8` writes a string and `utf8?` reads one; a byte string that is not
well-formed UTF-8 spells no string.

* `utf8?_eq_some_iff`: `bs` spells `s` exactly when `bs` is what writing `s` gives.
* `utf8?_eq_none_iff`: `bs` spells nothing exactly when it is not well formed.
* `utf8_eq_flatMap`: text is written character by character.
* `utf8EncodeChar_of_lt`, `le_of_mem_utf8EncodeChar`: an ASCII character is written as its own byte,
  and no other character has such a byte.
-/

namespace EnvelopeWire

/-- The UTF-8 bytes of a string. -/
def utf8 (s : String) : Bytes := s.toByteArray.data.toList

/-- The string that `bs` spells in UTF-8, if it spells one. -/
def utf8? (bs : Bytes) : Option String := String.fromUTF8? ⟨bs.toArray⟩

/-- What is written is read back. -/
@[simp]
theorem utf8?_utf8 (s : String) : utf8? (utf8 s) = some s := by
  have h : (⟨(utf8 s).toArray⟩ : ByteArray) = s.toByteArray := by simp [utf8]
  rw [utf8?, h, String.fromUTF8?, dif_pos s.isValidUTF8]
  rfl

/-- Bytes spell a string exactly when they are what writing it gives. -/
theorem utf8?_eq_some_iff {bs : Bytes} {s : String} : utf8? bs = some s ↔ bs = utf8 s := by
  refine ⟨fun h => ?_, fun h => h ▸ utf8?_utf8 s⟩
  rw [utf8?, String.fromUTF8?] at h
  split at h
  · obtain rfl := Option.some.inj h
    rfl
  · cases h

/-- Bytes that are not well formed spell nothing. -/
theorem utf8?_eq_none_iff {bs : Bytes} :
    utf8? bs = none ↔ ¬ (⟨bs.toArray⟩ : ByteArray).IsValidUTF8 := by
  rw [utf8?, String.fromUTF8?]
  split <;> simp_all

/-- Text is written character by character. -/
theorem utf8_eq_flatMap (s : String) : utf8 s = s.toList.flatMap String.utf8EncodeChar := by
  rw [utf8, ← String.ofList_toList (s := s), String.toByteArray_ofList, List.utf8Encode,
    List.data_toByteArray, String.toList_ofList]

theorem utf8_append (s t : String) : utf8 (s ++ t) = utf8 s ++ utf8 t := by
  simp [utf8_eq_flatMap]

/-- A character in ASCII is written as the byte with its number. -/
theorem utf8EncodeChar_of_lt {c : Char} (h : c.toNat < 128) :
    String.utf8EncodeChar c = [UInt8.ofNat c.toNat] :=
  if_pos (Nat.le_of_lt_succ h)

/-- The bytes of a character that is not in ASCII are not in ASCII either. -/
theorem le_of_mem_utf8EncodeChar {c : Char} (h : 128 ≤ c.toNat) {b : UInt8}
    (hb : b ∈ String.utf8EncodeChar c) : 128 ≤ b.toNat := by
  have hv : 128 ≤ c.val.toNat := h
  simp only [String.utf8EncodeChar] at hb
  split at hb
  · omega
  · split at hb
    · simp only [List.mem_cons, List.not_mem_nil, or_false] at hb
      rcases hb with rfl | rfl <;> simp only [UInt8.toNat_ofNat'] <;> omega
    · split at hb <;> simp only [List.mem_cons, List.not_mem_nil, or_false] at hb
      · rcases hb with rfl | rfl | rfl <;> simp only [UInt8.toNat_ofNat'] <;> omega
      · rcases hb with rfl | rfl | rfl | rfl <;> simp only [UInt8.toNat_ofNat'] <;> omega

/-- A character that is not in ASCII has at least two bytes. -/
theorem exists_utf8EncodeChar_of_le {c : Char} (h : 128 ≤ c.toNat) :
    ∃ first second rest, String.utf8EncodeChar c = first :: second :: rest := by
  have hv : 128 ≤ c.val.toNat := h
  simp only [String.utf8EncodeChar]
  rw [if_neg (by omega)]
  split
  · exact ⟨_, _, _, rfl⟩
  · split <;> exact ⟨_, _, _, rfl⟩

end EnvelopeWire
