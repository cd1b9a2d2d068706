import EnvelopeWire.Envelope.Basic
import Mathlib.Algebra.Group.Int.Defs
import Mathlib.Algebra.Group.Nat.Defs
import Mathlib.Data.List.GetD

/-!
# The format of a buffer

What it takes for bytes to hold an object, said of the bytes alone: the numbers stored in them are
natural numbers and integers, and no reader takes part. An object at `p` lies in a buffer together
with its vtable (`Bytes.IsTable`), a slot of it is absent or holds a field inside the object
(`Bytes.GoodSlot`), and a reference in a slot leads to a place inside the buffer
(`Bytes.GoodReference`).

A reader asks for exactly this:

* `Table.vtable_eq_ok_iff_isTable`: an object has a vtable exactly when it lies in the buffer.
* `Table.get_eq_ok_iff`: a scalar is read exactly from a good slot.
* `Table.getWith_eq_ok_iff`: a reference is followed exactly from a good reference.
-/

namespace EnvelopeWire

namespace Bytes

/-! ### Numbers in a buffer -/

/-- The byte at `i`, or zero behind the end. -/
def byteAt (b : Bytes) (i : Nat) : Nat := (b.getD i 0).toNat

/-- The 16-bit number at `i`. -/
def word16At (b : Bytes) (i : Nat) : Nat := b.byteAt i + 256 * b.byteAt (i + 1)

/-- The 32-bit number at `i`. -/
def word32At (b : Bytes) (i : Nat) : Nat := b.word16At i + 65536 * b.word16At (i + 2)

/-- The signed 32-bit number at `i`. -/
def int32At (b : Bytes) (i : Nat) : Int :=
  if b.word32At i < 2 ^ 31 then b.word32At i else (b.word32At i : Int) - 2 ^ 32

private theorem byteAt_lt (b : Bytes) (i : Nat) : b.byteAt i < 256 := UInt8.toNat_lt _

/-- Two bytes hold a number below `2 ^ 16`. -/
theorem word16At_lt (b : Bytes) (i : Nat) : b.word16At i < 65536 := by
  have hlow := b.byteAt_lt i
  have hhigh := b.byteAt_lt (i + 1)
  rw [word16At]
  omega

private theorem word32At_lt (b : Bytes) (i : Nat) : b.word32At i < 2 ^ 32 := by
  have hlow := b.word16At_lt i
  have hhigh := b.word16At_lt (i + 2)
  rw [word32At]
  omega

/-- A number is its first byte and the number that the bytes behind it spell. -/
private theorem ofLittleEndian_take_succ (b : Bytes) (i n : Nat) :
    ofLittleEndian ((b.drop i).take (n + 1))
      = b.byteAt i + 256 * ofLittleEndian ((b.drop (i + 1)).take n) := by
  by_cases hi : i < b.length
  · rw [List.drop_eq_getElem_cons hi, List.take_succ_cons, ofLittleEndian, byteAt,
      List.getD_eq_getElem _ _ hi]
  · have hle : b.length ≤ i := Nat.le_of_not_lt hi
    have hrest : b.length ≤ i + 1 := Nat.le_succ_of_le hle
    rw [List.drop_eq_nil_of_le hle, List.drop_eq_nil_of_le hrest, byteAt,
      List.getD_eq_default _ _ hle]
    simp [ofLittleEndian]

private theorem ofLittleEndian_take_one (b : Bytes) (i : Nat) :
    ofLittleEndian ((b.drop i).take 1) = b.byteAt i := by
  rw [ofLittleEndian_take_succ, List.take_zero, ofLittleEndian]
  omega

/-- A 16-bit number is two bytes, the low one first. -/
private theorem ofLittleEndian_take_two (b : Bytes) (i : Nat) :
    ofLittleEndian ((b.drop i).take 2) = b.word16At i := by
  rw [ofLittleEndian_take_succ, ofLittleEndian_take_one, word16At]

/-- A 32-bit number is four bytes, the low one first. -/
private theorem ofLittleEndian_take_four (b : Bytes) (i : Nat) :
    ofLittleEndian ((b.drop i).take 4) = b.word32At i := by
  rw [ofLittleEndian_take_succ, ofLittleEndian_take_succ, ofLittleEndian_take_two, word32At,
    word16At, word16At]
  omega

end Bytes

/-! ### Scalars -/

section Scalars

variable {b : Bytes} {i : Nat}

/-- A scalar is read exactly where all its bytes are. -/
theorem readScalar_eq_ok_iff {type : ScalarType} {value : type.Value} :
    readScalar type b i = .ok value ↔
      i + type.width ≤ b.length ∧ value = type.decode ((b.drop i).take type.width) := by
  rw [readScalar, map_eq_ok_iff]
  constructor
  · rintro ⟨s, hread, rfl⟩
    obtain ⟨hle, rfl⟩ := Bytes.read_eq_ok_iff.mp hread
    exact ⟨hle, rfl⟩
  · rintro ⟨hle, rfl⟩
    exact ⟨_, Bytes.read_eq_ok_iff.mpr ⟨hle, rfl⟩, rfl⟩

theorem toNat_decode_u8 (b : Bytes) (i : Nat) :
    UInt8.toNat (ScalarType.u8.decode ((b.drop i).take 1)) = b.byteAt i := by
  rw [ScalarType.decode, Bytes.ofLittleEndian_take_one]
  exact UInt8.toNat_ofNat_of_lt' (b.byteAt_lt i)

theorem toNat_decode_u16 (b : Bytes) (i : Nat) :
    UInt16.toNat (ScalarType.u16.decode ((b.drop i).take 2)) = b.word16At i := by
  rw [ScalarType.decode, Bytes.ofLittleEndian_take_two]
  exact UInt16.toNat_ofNat_of_lt' (b.word16At_lt i)

private theorem toNat_decode_u32 (b : Bytes) (i : Nat) :
    UInt32.toNat (ScalarType.u32.decode ((b.drop i).take 4)) = b.word32At i := by
  rw [ScalarType.decode, Bytes.ofLittleEndian_take_four]
  exact UInt32.toNat_ofNat_of_lt' (b.word32At_lt i)

theorem toInt_decode_i32 (b : Bytes) (i : Nat) :
    Int32.toInt (ScalarType.i32.decode ((b.drop i).take 4)) = b.int32At i := by
  have hlt := b.word32At_lt i
  rw [ScalarType.decode, Bytes.ofLittleEndian_take_four, Bytes.int32At]
  change (BitVec.ofNat 32 (b.word32At i)).toInt = _
  rw [BitVec.toInt_eq_toNat_cond, BitVec.toNat_ofNat, Nat.mod_eq_of_lt hlt]
  split <;> split <;> omega

/-- Two bytes that are there are read as the number that they hold. -/
theorem readScalar_u16_eq_ok_iff {value : UInt16} :
    readScalar .u16 b i = .ok value ↔ i + 2 ≤ b.length ∧ value.toNat = b.word16At i := by
  rw [readScalar_eq_ok_iff, ← toNat_decode_u16, UInt16.toNat_inj]
  rfl

/-- Four bytes that are there are read as the number that they hold. -/
theorem readScalar_u32_eq_ok_iff {value : UInt32} :
    readScalar .u32 b i = .ok value ↔ i + 4 ≤ b.length ∧ value.toNat = b.word32At i := by
  rw [readScalar_eq_ok_iff, ← toNat_decode_u32, UInt32.toNat_inj]
  rfl

/-- Four bytes that are there are read as the signed number that they hold. -/
theorem readScalar_i32_eq_ok_iff {value : Int32} :
    readScalar .i32 b i = .ok value ↔ i + 4 ≤ b.length ∧ value.toInt = b.int32At i := by
  rw [readScalar_eq_ok_iff, ← toInt_decode_i32, Int32.toInt_inj]
  rfl

private theorem exists_readScalar_u16 (h : i + 2 ≤ b.length) :
    ∃ value : UInt16, readScalar .u16 b i = .ok value ∧ value.toNat = b.word16At i :=
  ⟨_, readScalar_eq_ok_iff.mpr ⟨h, rfl⟩, toNat_decode_u16 b i⟩

theorem exists_readScalar_u32 (h : i + 4 ≤ b.length) :
    ∃ value : UInt32, readScalar .u32 b i = .ok value ∧ value.toNat = b.word32At i :=
  ⟨_, readScalar_eq_ok_iff.mpr ⟨h, rfl⟩, toNat_decode_u32 b i⟩

theorem exists_readScalar_i32 (h : i + 4 ≤ b.length) :
    ∃ value : Int32, readScalar .i32 b i = .ok value ∧ value.toInt = b.int32At i :=
  ⟨_, readScalar_eq_ok_iff.mpr ⟨h, rfl⟩, toInt_decode_i32 b i⟩

end Scalars

/-! ### Objects -/

namespace Bytes

section Objects

variable (b : Bytes) (p : Nat)

/-- Where the vtable of the object at `p` starts. -/
def vtableAt : Nat := ((p : Int) - b.int32At p).toNat

/-- The length of the vtable of the object at `p`. -/
def vtableLengthAt : Nat := b.word16At (b.vtableAt p)

/-- The length of the object at `p`. -/
def objectLengthAt : Nat := b.word16At (b.vtableAt p + 2)

/-- An object lies at `p`, with its vtable. -/
structure IsTable : Prop where
  reference_le : p + 4 ≤ b.length
  start_nonneg : 0 ≤ (p : Int) - b.int32At p
  header_le : b.vtableAt p + 2 ≤ b.length
  vtable_even : b.vtableLengthAt p % 2 = 0
  four_le_vtable : 4 ≤ b.vtableLengthAt p
  vtable_le : b.vtableAt p + b.vtableLengthAt p ≤ b.length
  four_le_object : 4 ≤ b.objectLengthAt p
  object_le : p + b.objectLengthAt p ≤ b.length

/-- The distance of the field in `slot` from the start of the object at `p`, zero where the vtable
says so or has no entry for the slot. -/
def fieldAt (slot : Nat) : Nat :=
  if b.vtableLengthAt p < 4 + 2 * slot + 2 then 0 else b.word16At (b.vtableAt p + (4 + 2 * slot))

/-- `slot` is absent, or holds `width` bytes behind the vtable reference and inside the object. -/
def GoodSlot (slot width : Nat) : Prop :=
  b.fieldAt p slot = 0 ∨ 4 ≤ b.fieldAt p slot ∧ b.fieldAt p slot + width ≤ b.objectLengthAt p

/-- Where the reference in `slot` leads. -/
def targetAt (slot : Nat) : Nat := p + b.fieldAt p slot + b.word32At (p + b.fieldAt p slot)

/-- `slot` is absent, or holds a reference that stays in the buffer. -/
def GoodReference (slot : Nat) : Prop :=
  b.GoodSlot p slot 4 ∧ (b.fieldAt p slot ≠ 0 → b.targetAt p slot < b.length)

/-- `slot` is absent, or holds a reference to a place with `P`. -/
def RefersTo (slot : Nat) (P : Nat → Prop) : Prop :=
  b.GoodReference p slot ∧ (b.fieldAt p slot ≠ 0 → P (b.targetAt p slot))

/-- The bytes of the vector at `p`: as many as the number there says. -/
def vectorAt : Bytes := (b.drop (p + 4)).take (b.word32At p)

/-- A vector lies at `p`. -/
def IsVector : Prop := p + 4 ≤ b.length ∧ p + 4 + b.word32At p ≤ b.length

/-- A string lies at `p`: a vector whose bytes are UTF-8. -/
def IsString : Prop := b.IsVector p ∧ ∃ text : String, b.vectorAt p = utf8 text

end Objects

variable {b : Bytes} {p slot width : Nat}

/-- A field that is not absent has all its bytes in the buffer. -/
theorem IsTable.field_le (h : b.IsTable p) (hslot : b.GoodSlot p slot width)
    (hfield : b.fieldAt p slot ≠ 0) : p + b.fieldAt p slot + width ≤ b.length := by
  have hobject := h.object_le
  rcases hslot with hnone | ⟨-, hle⟩
  · exact absurd hnone hfield
  · omega

end Bytes

/-! ### Vtables -/

namespace VTable

/-- An entry is the 16-bit number at its place, zero behind the end of the vtable. -/
theorem fieldOffset_eq (v : VTable) (slot : UInt16) :
    v.fieldOffset slot =
      if v.bytes.length < 4 + 2 * slot.toNat + 2 then 0
      else ScalarType.u16.decode ((v.bytes.drop (4 + 2 * slot.toNat)).take 2) := by
  have hlength : (v.bytes.drop (4 + 2 * slot.toNat)).length
      = v.bytes.length - (4 + 2 * slot.toNat) := List.length_drop
  rw [fieldOffset]
  split
  next low high rest hdrop =>
    rw [hdrop, List.length_cons, List.length_cons] at hlength
    rw [if_neg (by omega), hdrop]
    rfl
  next hshort =>
    have htwo : (v.bytes.drop (4 + 2 * slot.toNat)).length < 2 := by
      rcases hdrop : v.bytes.drop (4 + 2 * slot.toNat) with _ | ⟨low, _ | ⟨high, rest⟩⟩
      · exact Nat.zero_lt_two
      · exact Nat.one_lt_two
      · exact absurd hdrop (hshort low high rest)
    rw [if_pos (by omega)]

end VTable

/-- The vtable of the object at `p`. -/
def Bytes.vtable (b : Bytes) (p : Nat) : VTable where
  bytes := (b.drop (b.vtableAt p)).take (b.vtableLengthAt p)
  position := b.vtableAt p

/-- A part of the vtable is the part of the buffer there. -/
private theorem Bytes.drop_vtable (b : Bytes) (p : Nat) {i n : Nat}
    (hle : i + n ≤ b.vtableLengthAt p) :
    ((b.vtable p).bytes.drop i).take n = (b.drop (b.vtableAt p + i)).take n := by
  rw [Bytes.vtable, List.drop_take, List.take_take, List.drop_drop, Nat.min_eq_left (by omega)]

namespace Bytes.IsTable

variable {b : Bytes} {p : Nat} (h : b.IsTable p)

include h

/-- A vtable has as many bytes as it says. -/
theorem length_vtable : (b.vtable p).bytes.length = b.vtableLengthAt p := by
  have hle := h.vtable_le
  rw [Bytes.vtable, List.length_take, List.length_drop]
  omega

theorem objectLength_vtable : (b.vtable p).objectLength = b.objectLengthAt p := by
  have hfour := h.four_le_vtable
  rw [VTable.objectLength, b.drop_vtable p (by omega)]
  exact toNat_decode_u16 b _

/-- The entry for a slot is the number at its place in the buffer. -/
theorem fieldOffset_vtable (slot : UInt16) :
    ((b.vtable p).fieldOffset slot).toNat = b.fieldAt p slot.toNat := by
  rw [VTable.fieldOffset_eq, h.length_vtable, Bytes.fieldAt]
  split
  · rfl
  · rw [b.drop_vtable p (by omega)]
    exact toNat_decode_u16 b _

end Bytes.IsTable

/-! ### What a reader asks for -/

namespace Table

/-- **An object has a vtable exactly when it lies in the buffer.** -/
theorem vtable_eq_ok_iff_isTable {t : Table} {v : VTable} :
    t.vtable = .ok v ↔ t.buffer.IsTable t.position ∧ v = t.buffer.vtable t.position := by
  obtain ⟨b, p⟩ := t
  rw [vtable_eq_ok_iff]
  constructor
  · rintro ⟨reference, start, length, objectLength, bytes, object, href, hstart, hlength,
      ⟨hfour, heven⟩, hbytes, hobject, hfour', hwhole, rfl⟩
    obtain ⟨href_le, hreference⟩ := readScalar_i32_eq_ok_iff.mp href
    obtain ⟨hlength_le, hlengthNat⟩ := readScalar_u16_eq_ok_iff.mp hlength
    obtain ⟨-, hobjectNat⟩ := readScalar_u16_eq_ok_iff.mp hobject
    obtain ⟨hbytes_le, rfl⟩ := Bytes.read_eq_ok_iff.mp hbytes
    obtain ⟨hwhole_le, -⟩ := Bytes.read_eq_ok_iff.mp hwhole
    rw [hreference] at hstart
    have hat : b.vtableAt p = start := congrArg Int.toNat hstart
    rw [← hat] at hlength_le hlengthNat hobjectNat hbytes_le
    rw [show length.toNat = b.vtableLengthAt p from hlengthNat] at hfour heven hbytes_le ⊢
    rw [show objectLength.toNat = b.objectLengthAt p from hobjectNat] at hfour' hwhole_le
    have hnonneg : 0 ≤ (p : Int) - b.int32At p := hstart ▸ Int.natCast_nonneg start
    exact ⟨⟨href_le, hnonneg, hlength_le, heven, hfour, hbytes_le, hfour', hwhole_le⟩,
      by rw [Bytes.vtable, hat]⟩
  · rintro ⟨h, rfl⟩
    have h : b.IsTable p := h
    have hfour := h.four_le_vtable
    have hvtable_le := h.vtable_le
    obtain ⟨reference, href, hreference⟩ := exists_readScalar_i32 h.reference_le
    obtain ⟨length, hlength, hlengthNat⟩ := exists_readScalar_u16 h.header_le
    obtain ⟨objectLength, hobject, hobjectNat⟩ :=
      exists_readScalar_u16 (show b.vtableAt p + 2 + 2 ≤ b.length by omega)
    have hstart : (p : Int) - b.int32At p = b.vtableAt p :=
      (Int.toNat_of_nonneg h.start_nonneg).symm
    refine ⟨reference, b.vtableAt p, length, objectLength, (b.vtable p).bytes,
      (b.drop p).take (b.objectLengthAt p), href,
      hreference ▸ hstart, hlength, ?_, ?_, hobject, ?_, ?_, rfl⟩
    · rw [show length.toNat = b.vtableLengthAt p from hlengthNat]
      exact ⟨hfour, h.vtable_even⟩
    · rw [show length.toNat = b.vtableLengthAt p from hlengthNat]
      exact Bytes.read_eq_ok_iff.mpr ⟨hvtable_le, rfl⟩
    · rw [show objectLength.toNat = b.objectLengthAt p from hobjectNat]
      exact h.four_le_object
    · rw [show objectLength.toNat = b.objectLengthAt p from hobjectNat]
      exact Bytes.read_eq_ok_iff.mpr ⟨h.object_le, rfl⟩

/-- An object is found exactly where the bytes make one. -/
theorem ofPosition_eq_ok_iff {b : Bytes} {p : Nat} {t : Table} :
    ofPosition b p = .ok t ↔ b.IsTable p ∧ t = ⟨b, p⟩ := by
  rw [ofPosition, map_eq_ok_iff]
  constructor
  · rintro ⟨v, hv, rfl⟩
    exact ⟨(vtable_eq_ok_iff_isTable.mp hv).1, rfl⟩
  · rintro ⟨h, rfl⟩
    exact ⟨b.vtable p, vtable_eq_ok_iff_isTable.mpr ⟨h, rfl⟩, rfl⟩

section Fields

variable {b : Bytes} {p : Nat} {slot : UInt16}

/-- A field is found exactly in a good slot. -/
private theorem locateField_eq_ok_iff {size : Nat} {r : Option Nat} :
    locateField ⟨b, p⟩ slot size = .ok r ↔
      b.IsTable p ∧ b.GoodSlot p slot.toNat size ∧
        r = if b.fieldAt p slot.toNat = 0 then none else some (p + b.fieldAt p slot.toNat) := by
  rw [locateField, bind_eq_ok_iff]
  simp only [vtable_eq_ok_iff_isTable]
  constructor
  · rintro ⟨v, ⟨h, rfl⟩, hfield⟩
    rw [h.fieldOffset_vtable, h.objectLength_vtable] at hfield
    refine ⟨h, ?_⟩
    split at hfield
    case isTrue hzero =>
      rw [if_pos hzero]
      exact ⟨.inl hzero, (Except.ok.inj hfield).symm⟩
    case isFalse hfour =>
      obtain ⟨_, hin, heq⟩ := bind_eq_ok_iff.mp hfield
      rw [if_neg hfour]
      exact ⟨.inr (ensure_eq_ok_iff.mp hin), (Except.ok.inj heq).symm⟩
  · rintro ⟨h, hslot, rfl⟩
    refine ⟨_, ⟨h, rfl⟩, ?_⟩
    rw [h.fieldOffset_vtable, h.objectLength_vtable]
    split
    case isTrue => rfl
    case isFalse hzero =>
      have hin := hslot.resolve_left hzero
      exact bind_eq_ok_iff.mpr ⟨(), ensure_eq_ok_iff.mpr hin, rfl⟩

/-- **A scalar is read exactly from a good slot.** -/
theorem get_eq_ok_iff {type : ScalarType} {default value : type.Value} :
    get ⟨b, p⟩ type slot default = .ok value ↔
      b.IsTable p ∧ b.GoodSlot p slot.toNat type.width ∧
        value = if b.fieldAt p slot.toNat = 0 then default
          else type.decode ((b.drop (p + b.fieldAt p slot.toNat)).take type.width) := by
  rw [get, bind_eq_ok_iff]
  simp only [locateField_eq_ok_iff]
  constructor
  · rintro ⟨r, ⟨h, hslot, rfl⟩, hread⟩
    refine ⟨h, hslot, ?_⟩
    by_cases hzero : b.fieldAt p slot.toNat = 0
    · rw [if_pos hzero] at hread ⊢
      exact (Except.ok.inj hread).symm
    · rw [if_neg hzero] at hread ⊢
      exact (readScalar_eq_ok_iff.mp hread).2
  · rintro ⟨h, hslot, rfl⟩
    refine ⟨_, ⟨h, hslot, rfl⟩, ?_⟩
    by_cases hzero : b.fieldAt p slot.toNat = 0
    · rw [if_pos hzero, if_pos hzero]
      rfl
    · rw [if_neg hzero, if_neg hzero]
      exact readScalar_eq_ok_iff.mpr ⟨h.field_le hslot hzero, rfl⟩

/-- A reference is followed exactly when it is a good one. -/
theorem follow_eq_ok_iff {r : Option Nat} :
    follow ⟨b, p⟩ slot = .ok r ↔
      b.IsTable p ∧ b.GoodReference p slot.toNat ∧
        r = if b.fieldAt p slot.toNat = 0 then none else some (b.targetAt p slot.toNat) := by
  rw [follow, bind_eq_ok_iff]
  simp only [locateField_eq_ok_iff]
  constructor
  · rintro ⟨r, ⟨h, hslot, rfl⟩, hfollow⟩
    by_cases hzero : b.fieldAt p slot.toNat = 0
    · rw [if_pos hzero] at hfollow ⊢
      exact ⟨h, ⟨hslot, fun hne => absurd hzero hne⟩, (Except.ok.inj hfollow).symm⟩
    · rw [if_neg hzero] at hfollow ⊢
      obtain ⟨distance, hdistance, hfollow⟩ := bind_eq_ok_iff.mp hfollow
      obtain ⟨_, htarget, heq⟩ := bind_eq_ok_iff.mp hfollow
      have hin := ensure_eq_ok_iff.mp htarget
      rw [(readScalar_u32_eq_ok_iff.mp hdistance).2] at hin heq
      exact ⟨h, ⟨hslot, fun _ => hin⟩, (Except.ok.inj heq).symm⟩
  · rintro ⟨h, ⟨hslot, htarget⟩, rfl⟩
    refine ⟨_, ⟨h, hslot, rfl⟩, ?_⟩
    by_cases hzero : b.fieldAt p slot.toNat = 0
    · rw [if_pos hzero, if_pos hzero]
      rfl
    · rw [if_neg hzero, if_neg hzero]
      obtain ⟨distance, hdistance, hnat⟩ := exists_readScalar_u32 (h.field_le hslot hzero)
      have hin := htarget hzero
      rw [Bytes.targetAt, ← hnat] at hin ⊢
      exact bind_eq_ok_iff.mpr ⟨distance, hdistance,
        bind_eq_ok_iff.mpr ⟨(), ensure_eq_ok_iff.mpr hin, rfl⟩⟩

/-- **A reference is followed exactly when it is a good one**, and then what it leads to is read. -/
theorem getWith_eq_ok_iff {α : Type} {read : Nat → Except WireError α} {r : Option α} :
    getWith ⟨b, p⟩ slot read = .ok r ↔
      b.IsTable p ∧ b.GoodReference p slot.toNat ∧
        if b.fieldAt p slot.toNat = 0 then r = none
        else ∃ a, read (b.targetAt p slot.toNat) = .ok a ∧ r = some a := by
  rw [getWith, bind_eq_ok_iff]
  simp only [follow_eq_ok_iff]
  constructor
  · rintro ⟨r, ⟨h, hreference, rfl⟩, hread⟩
    refine ⟨h, hreference, ?_⟩
    by_cases hzero : b.fieldAt p slot.toNat = 0
    · rw [if_pos hzero] at hread ⊢
      exact (Except.ok.inj hread).symm
    · rw [if_neg hzero] at hread ⊢
      obtain ⟨a, ha, heq⟩ := bind_eq_ok_iff.mp hread
      exact ⟨a, ha, (Except.ok.inj heq).symm⟩
  · rintro ⟨h, hreference, hr⟩
    refine ⟨_, ⟨h, hreference, rfl⟩, ?_⟩
    by_cases hzero : b.fieldAt p slot.toNat = 0
    · rw [if_pos hzero] at hr ⊢
      rw [hr]
      rfl
    · rw [if_neg hzero] at hr ⊢
      obtain ⟨a, ha, rfl⟩ := hr
      exact bind_eq_ok_iff.mpr ⟨a, ha, rfl⟩

/-- A reference is followed to something that can be read exactly when it leads to a place where
something of the kind lies. -/
theorem exists_getWith_iff {α : Type} {read : Nat → Except WireError α} {P : Nat → Prop}
    (hread : ∀ target, (∃ a, read target = .ok a) ↔ P target) :
    (∃ r, getWith ⟨b, p⟩ slot read = .ok r) ↔ b.IsTable p ∧ b.RefersTo p slot.toNat P := by
  simp only [getWith_eq_ok_iff, Bytes.RefersTo, ← hread]
  constructor
  · rintro ⟨r, h, hreference, hr⟩
    refine ⟨h, hreference, fun hne => ?_⟩
    rw [if_neg hne] at hr
    obtain ⟨a, ha, -⟩ := hr
    exact ⟨a, ha⟩
  · rintro ⟨h, hreference, htarget⟩
    by_cases hzero : b.fieldAt p slot.toNat = 0
    · exact ⟨none, h, hreference, by rw [if_pos hzero]⟩
    · obtain ⟨a, ha⟩ := htarget hzero
      exact ⟨some a, h, hreference, by rw [if_neg hzero]; exact ⟨a, ha, rfl⟩⟩

end Fields

end Table

theorem readVector_eq_ok_iff {b bytes : Bytes} {p : Nat} :
    readVector b p = .ok bytes ↔ b.IsVector p ∧ bytes = b.vectorAt p := by
  rw [readVector, bind_eq_ok_iff]
  constructor
  · rintro ⟨count, hcount, hread⟩
    obtain ⟨hle, hnat⟩ := readScalar_u32_eq_ok_iff.mp hcount
    obtain ⟨hbytes, rfl⟩ := Bytes.read_eq_ok_iff.mp hread
    rw [hnat] at hbytes ⊢
    exact ⟨⟨hle, hbytes⟩, rfl⟩
  · rintro ⟨⟨hle, hbytes⟩, rfl⟩
    obtain ⟨count, hcount, hnat⟩ := exists_readScalar_u32 hle
    refine ⟨count, hcount, ?_⟩
    rw [hnat]
    exact Bytes.read_eq_ok_iff.mpr ⟨hbytes, rfl⟩

theorem readString_eq_ok_iff {b : Bytes} {p : Nat} {text : String} :
    readString b p = .ok text ↔ b.IsVector p ∧ b.vectorAt p = utf8 text := by
  rw [readString, bind_eq_ok_iff]
  simp only [readVector_eq_ok_iff, ← utf8?_eq_some_iff]
  constructor
  · rintro ⟨bytes, ⟨hvector, rfl⟩, htext⟩
    refine ⟨hvector, ?_⟩
    cases hutf : utf8? (b.vectorAt p) with
    | none =>
      rw [hutf] at htext
      cases htext
    | some s =>
      rw [hutf] at htext
      exact congrArg some (Except.ok.inj htext)
  · rintro ⟨hvector, htext⟩
    refine ⟨_, ⟨hvector, rfl⟩, ?_⟩
    rw [htext]
    rfl

end EnvelopeWire
