import EnvelopeWire.Proofs.Builder.Account
import EnvelopeWire.Table.Basic
import Mathlib.Data.List.GetD

/-!
# Reading what stands in a buffer

What an account says of a buffer is what a reader gets from it. An object that stands in the buffer
is found there with its vtable, and each of its slots reads as the value written in it; a string or
a vector that stands somewhere reads as itself.

* `presentSlots_vtableOf`: the slots that the vtable of an object lists.
* `ObjectStands.ofPosition_eq`: the object is found.
* `ObjectStands.get_of_none`, `ObjectStands.get_of_scalar`: what its scalar slots read as.
* `ObjectStands.follow_of_reference`: a reference leads to its target.
* `Item.StandsIn.readString`, `Item.StandsIn.readVector`: what strings and vectors read as.
-/

namespace EnvelopeWire

/-! ### Vtables -/

private theorem drop_flatMap_encode (entries : List UInt16) (n : Nat) :
    (entries.flatMap fun entry => ScalarType.u16.encode entry).drop (2 * n)
      = (entries.drop n).flatMap fun entry => ScalarType.u16.encode entry := by
  induction n generalizing entries with
  | zero => rfl
  | succ n ih =>
    cases entries with
    | nil => rfl
    | cons entry entries =>
      have hlength : (ScalarType.u16.encode entry).length = 2 := ScalarType.length_encode _ _
      rw [List.flatMap_cons, List.drop_succ_cons, Nat.mul_succ, Nat.add_comm, ← List.drop_drop,
        List.drop_left' hlength, ih]

/-- The entries of a vtable are read by number, zero behind the last. -/
private theorem VTable.fieldOffset_of_entries {v : VTable} {header : Bytes} {entries : List UInt16}
    (hheader : header.length = 4)
    (hbytes : v.bytes = header ++ entries.flatMap fun entry => ScalarType.u16.encode entry)
    (slot : UInt16) : v.fieldOffset slot = entries.getD slot.toNat 0 := by
  rw [fieldOffset, hbytes, ← List.drop_drop, List.drop_left' hheader, drop_flatMap_encode]
  by_cases hslot : slot.toNat < entries.length
  · rw [List.drop_eq_getElem_cons hslot, List.flatMap_cons, List.getD_eq_getElem _ _ hslot]
    exact ScalarType.u16.decode_encode _
  · rw [List.drop_eq_nil_of_le (Nat.le_of_not_lt hslot),
      List.getD_eq_default _ _ (Nat.le_of_not_lt hslot)]
    rfl

/-- An entry in front is listed unless it is zero. -/
private theorem VTable.presentFrom_encode (slot : Nat) (entry : UInt16) (rest : Bytes) :
    presentFrom slot (ScalarType.u16.encode entry ++ rest)
      = if entry = 0 then presentFrom (slot + 1) rest
        else (UInt16.ofNat slot, entry) :: presentFrom (slot + 1) rest := by
  have hentry : presentFrom slot (ScalarType.u16.encode entry ++ rest)
      = if ScalarType.u16.decode (ScalarType.u16.encode entry) = (0 : UInt16)
        then presentFrom (slot + 1) rest
        else (UInt16.ofNat slot, ScalarType.u16.decode (ScalarType.u16.encode entry))
          :: presentFrom (slot + 1) rest := rfl
  rw [hentry, ScalarType.decode_encode]

/-- The slots that are listed are those whose entry is not zero. -/
private theorem VTable.map_fst_presentFrom (entry : Nat → UInt16) (slot count : Nat) :
    (presentFrom slot
        (((List.range' slot count).map entry).flatMap fun entry => ScalarType.u16.encode entry)).map
        Prod.fst
      = ((List.range' slot count).filter fun i => entry i ≠ 0).map UInt16.ofNat := by
  induction count generalizing slot with
  | zero => rfl
  | succ count ih =>
    rw [List.range'_succ, List.map_cons, List.flatMap_cons, presentFrom_encode]
    by_cases hentry : entry slot = 0
    · rw [if_pos hentry, List.filter_cons_of_neg (by simpa using hentry)]
      exact ih (slot + 1)
    · rw [if_neg hentry, List.filter_cons_of_pos (by simpa using hentry), List.map_cons,
        List.map_cons, ih (slot + 1)]

private theorem length_vtableHeader (fields : List Field) :
    (ScalarType.u16.encode (UInt16.ofNat (4 + 2 * covered fields))
      ++ ScalarType.u16.encode (UInt16.ofNat (objectLength fields))).length = 4 := by
  rw [List.length_append, ScalarType.length_encode, ScalarType.length_encode]
  rfl

section ObjectVTable

variable {fields : List Field} (position : Nat)

/-- The vtable of an object says where each field is, and zero where there is none. -/
theorem fieldOffset_vtableOf (slot : UInt16) :
    VTable.fieldOffset ⟨vtableOf fields, position⟩ slot
      = (vtableEntry (objectLength fields) fields slot).getD 0 := by
  rw [VTable.fieldOffset_of_entries (length_vtableHeader fields) (vtableOf_eq fields)]
  by_cases hslot : slot.toNat < covered fields
  · rw [vtableEntries, List.getD_eq_getElem _ _ (by simpa using hslot), List.getElem_map,
      List.getElem_range, UInt16.ofNat_toNat]
  · have hnone : findField slot fields = none := by
      refine findField_eq_none_iff.mpr fun f hf heq => hslot ?_
      rw [← heq]
      exact slot_lt_covered hf
    rw [List.getD_eq_default _ _ (by simpa [vtableEntries] using hslot), vtableEntry, hnone]
    rfl

theorem objectLength_vtableOf (hlength : objectLength fields ≤ 65535) :
    VTable.objectLength ⟨vtableOf fields, position⟩ = objectLength fields := by
  have hcount : (ScalarType.u16.encode (UInt16.ofNat (4 + 2 * covered fields))).length = 2 :=
    ScalarType.length_encode _ _
  have hword : (ScalarType.u16.encode (UInt16.ofNat (objectLength fields))).length = 2 :=
    ScalarType.length_encode _ _
  rw [VTable.objectLength, vtableOf, List.drop_left' hcount, List.take_left' hword,
    ScalarType.decode_encode]
  exact UInt16.toNat_ofNat_of_lt' (Nat.lt_succ_of_le hlength)

/-- An entry is zero exactly where nothing is written: a field lies behind the reference to the
vtable. -/
private theorem vtableEntry_ne_zero_iff (hlength : objectLength fields ≤ 65535) (slot : UInt16) :
    (vtableEntry (objectLength fields) fields slot).getD 0 ≠ 0 ↔ (valueIn fields slot).isSome := by
  rw [valueIn_eq, vtableEntry]
  cases hfound : findField slot fields with
  | none => simp
  | some found =>
    obtain ⟨hwidth, hplace⟩ := le_of_findField hfound
    have hextent := extent_le_objectLength fields
    have hpos : (UInt16.ofNat (objectLength fields - found.2)).toNat ≠ 0 := by
      rw [UInt16.toNat_ofNat_of_lt' (show _ < 65536 by omega)]
      omega
    exact iff_of_true (fun heq => hpos (congrArg UInt16.toNat heq)) rfl

/-- Nothing is written behind the slots that the vtable covers. -/
private theorem valueIn_of_covered_le {i : Nat} (hcovered : covered fields ≤ i) (hi : i < 65536) :
    valueIn fields (UInt16.ofNat i) = none := by
  refine valueIn_eq_none_iff.mpr (findField_eq_none_iff.mpr fun f hf heq => ?_)
  have hslot := slot_lt_covered hf
  rw [heq, UInt16.toNat_ofNat_of_lt' hi] at hslot
  omega

/-- **The slots that the vtable of an object lists** are those in which something is written, in
order. -/
theorem presentSlots_vtableOf (hlength : objectLength fields ≤ 65535) {count : Nat}
    (hcount : covered fields ≤ count) (hsize : count ≤ 65536) :
    (VTable.presentSlots ⟨vtableOf fields, position⟩).map Prod.fst
      = ((List.range count).filter fun i => (valueIn fields (UInt16.ofNat i)).isSome).map
          UInt16.ofNat := by
  have hrest : ∀ i ∈ List.range' (covered fields) (count - covered fields),
      ¬(valueIn fields (UInt16.ofNat i)).isSome = true := by
    intro i hi
    obtain ⟨hle, hlt⟩ := List.mem_range'_1.mp hi
    rw [valueIn_of_covered_le hle (by omega)]
    exact Bool.false_ne_true
  have hsplit : List.range count = List.range (covered fields)
      ++ List.range' (covered fields) (count - covered fields) := by
    have happend :=
      List.range'_append_1 (s := 0) (m := covered fields) (n := count - covered fields)
    rw [Nat.zero_add, Nat.add_sub_cancel' hcount] at happend
    rw [List.range_eq_range', List.range_eq_range', happend]
  rw [VTable.presentSlots, vtableOf_eq, List.drop_left' (length_vtableHeader fields), vtableEntries,
    List.range_eq_range', VTable.map_fst_presentFrom, hsplit, List.filter_append,
    List.filter_eq_nil_iff.mpr hrest, List.append_nil, List.range_eq_range']
  refine congrArg (List.map UInt16.ofNat) (List.filter_congr fun i _ => ?_)
  exact Bool.eq_iff_iff.mpr
    (decide_eq_true_iff.trans (vtableEntry_ne_zero_iff hlength (UInt16.ofNat i)))

end ObjectVTable

/-! ### Objects -/

/-- A number that fits in 32 bits is the one that its four bytes spell. -/
private theorem encode_of_lt {n : Nat} (h : n < UInt32.size) :
    (UInt32.ofNat n).toNat = n ∧ ScalarType.u32.encode (UInt32.ofNat n) = littleEndian 4 n := by
  have htoNat : (UInt32.ofNat n).toNat = n := UInt32.toNat_ofNat_of_lt' h
  refine ⟨htoNat, ?_⟩
  rw [ScalarType.encode, ScalarType.bits, htoNat]
  rfl

/-- At `position` of `b` stands the distance to `target`, which lies behind it in `b`. -/
structure Bytes.ReferenceAt (b : Bytes) (position target : Nat) : Prop where
  distance : ∃ n : UInt32, readScalar .u32 b position = .ok n ∧ position + n.toNat = target
  behind : position + 3 < target
  inside : target < b.length

/-- The distance that a reference stores is read where it stands. -/
theorem Bytes.StandsAt.readScalar_distance {w : Bytes} {place target : Nat}
    (h : w.StandsAt place (littleEndian 4 (place - target))) (hw : w.length ≤ maxBufferSize) :
    ∃ n : UInt32, EnvelopeWire.readScalar .u32 w (w.length - place) = .ok n ∧
      n.toNat = place - target := by
  have hmax : maxBufferSize = 2 ^ 31 - 1 := rfl
  have hplace := h.place_le
  obtain ⟨hdistance, hbytes⟩ := encode_of_lt (show place - target < 2 ^ 32 by omega)
  rw [← hbytes] at h
  exact ⟨_, h.readScalar, hdistance⟩

/-- A reference to something written before leads there, whatever it is. -/
theorem Bytes.StandsAt.referenceAt {w : Bytes} {place target : Nat}
    (h : w.StandsAt place (littleEndian 4 (place - target))) (hw : w.length ≤ maxBufferSize)
    (hpos : 0 < target) (hle : target + 4 ≤ place) :
    w.ReferenceAt (w.length - place) (w.length - target) := by
  have hplace := h.place_le
  obtain ⟨n, hread, hdistance⟩ := h.readScalar_distance hw
  exact ⟨⟨n, hread, by omega⟩, by omega, by omega⟩

namespace ObjectStands

variable {w : Bytes} {start : Nat} {fields : List Field}

/-- The object reads its vtable. -/
theorem vtable_eq (h : ObjectStands w start fields) (hw : w.length ≤ maxBufferSize) :
    ∃ position, Table.vtable ⟨w, w.length - (start + objectLength fields)⟩
      = .ok ⟨vtableOf fields, position⟩ := by
  have hmax : maxBufferSize = 2 ^ 31 - 1 := rfl
  have hfields : maxFields = 32765 := rfl
  obtain ⟨vtable, hobject, hvtable⟩ := h.stands
  have hcovered := h.laidOut.covered_le
  have hlength := h.length_le
  have hextent := extent_le_objectLength fields
  have hplace := hobject.place_le
  have hvplace := hvtable.place_le
  -- The reference is signed: the vtable may lie in front of the object or behind it.
  have hreference : readScalar .i32 w (w.length - (start + objectLength fields))
      = .ok (Int32.ofInt ((vtable : Int) - (start + objectLength fields : Nat))) :=
    hobject.left.readScalar
  have hsum : ((w.length - (start + objectLength fields) : Nat) : Int)
      - Int32.toInt (Int32.ofInt ((vtable : Int) - (start + objectLength fields : Nat)))
        = (w.length - vtable : Nat) := by
    rw [Int32.toInt_ofInt_of_le (by omega) (by omega)]
    omega
  have hsize : readScalar .u16 w (w.length - vtable)
      = .ok (UInt16.ofNat (4 + 2 * covered fields)) := hvtable.left.readScalar
  have hsizeNat : (UInt16.ofNat (4 + 2 * covered fields)).toNat = 4 + 2 * covered fields :=
    UInt16.toNat_ofNat_of_lt' (show _ < 65536 by omega)
  have hbytes : w.read (w.length - vtable) (UInt16.ofNat (4 + 2 * covered fields)).toNat
      = .ok (vtableOf fields) := by
    rw [hsizeNat, ← length_vtableOf]
    exact hvtable.read
  have hword : readScalar .u16 w (w.length - vtable + 2)
      = .ok (UInt16.ofNat (objectLength fields)) := by
    rw [vtableOf_eq] at hvtable
    have hread := hvtable.left.readScalar_right
    rwa [ScalarType.length_encode] at hread
  have hwordNat : (UInt16.ofNat (objectLength fields)).toNat = objectLength fields :=
    UInt16.toNat_ofNat_of_lt' (Nat.lt_succ_of_le hlength)
  have hwhole : w.read (w.length - (start + objectLength fields))
      (UInt16.ofNat (objectLength fields)).toNat = .ok (objectBytes start vtable fields) := by
    have hread := hobject.read
    rw [length_objectBytes] at hread
    rwa [hwordNat]
  have hheader : 4 ≤ (UInt16.ofNat (4 + 2 * covered fields)).toNat ∧
      (UInt16.ofNat (4 + 2 * covered fields)).toNat % 2 = 0 := by
    rw [hsizeNat]
    omega
  have hcovers : 4 ≤ (UInt16.ofNat (objectLength fields)).toNat := by
    rw [hwordNat]
    omega
  refine ⟨w.length - vtable, ?_⟩
  rw [Table.vtable_eq_ok_iff]
  exact ⟨_, _, _, _, _, _, hreference, hsum, hsize, hheader, hbytes, hword, hcovers, hwhole, rfl⟩

/-- **The object is found at its place.** -/
theorem ofPosition_eq (h : ObjectStands w start fields) (hw : w.length ≤ maxBufferSize) :
    Table.ofPosition w (w.length - (start + objectLength fields))
      = .ok ⟨w, w.length - (start + objectLength fields)⟩ := by
  obtain ⟨position, hvtable⟩ := h.vtable_eq hw
  exact Table.ofPosition_eq_ok hvtable

/-- A slot without a field is absent. -/
private theorem locateField_eq_none (h : ObjectStands w start fields)
    (hw : w.length ≤ maxBufferSize) {slot : UInt16} (hslot : findField slot fields = none)
    (size : Nat) :
    Table.locateField ⟨w, w.length - (start + objectLength fields)⟩ slot size = .ok none := by
  obtain ⟨position, hvtable⟩ := h.vtable_eq hw
  refine Table.locateField_eq_none hvtable ?_
  rw [fieldOffset_vtableOf, vtableEntry, hslot]
  rfl

/-- A field is found where it stands. -/
theorem locateField_eq_some (h : ObjectStands w start fields) (hw : w.length ≤ maxBufferSize)
    {slot : UInt16} {v : FieldValue} {place : Nat}
    (hslot : findField slot fields = some (v, place)) :
    Table.locateField ⟨w, w.length - (start + objectLength fields)⟩ slot v.width
      = .ok (some (w.length - (start + place))) := by
  obtain ⟨position, hvtable⟩ := h.vtable_eq hw
  obtain ⟨vtable, hobject, -⟩ := h.stands
  have hplace := hobject.place_le
  have hlength := h.length_le
  have hextent := extent_le_objectLength fields
  obtain ⟨hwidth, hle⟩ := le_of_findField hslot
  have hoffset : (VTable.fieldOffset ⟨vtableOf fields, position⟩ slot).toNat
      = objectLength fields - place := by
    rw [fieldOffset_vtableOf, vtableEntry, hslot]
    exact UInt16.toNat_ofNat_of_lt' (show _ < 65536 by omega)
  rw [Table.locateField_eq_some hvtable (by rw [hoffset]; omega)
    (by rw [hoffset, objectLength_vtableOf _ hlength]; omega), hoffset]
  have hsub : w.length - (start + objectLength fields) + (objectLength fields - place)
      = w.length - (start + place) := by omega
  exact congrArg (fun n => Except.ok (some n)) hsub

/-- A field stands where it is found. -/
theorem standsAt_field (h : ObjectStands w start fields) {slot : UInt16} {v : FieldValue}
    {place : Nat} (hslot : findField slot fields = some (v, place)) :
    w.StandsAt (start + place) (v.bytes (start + place)) := by
  obtain ⟨vtable, hobject, -⟩ := h.stands
  have hfields := hobject.right.right
  rw [length_vtableReference, List.length_replicate] at hfields
  have hplace : start + objectLength fields - 4 - padding (extent fields + 4) 4
      = start + extent fields := by
    rw [objectLength]
    omega
  rw [hplace] at hfields
  exact standsAt_of_findField hfields hslot

/-- **A scalar reads as it was written**, whatever the default. -/
theorem get_of_scalar (h : ObjectStands w start fields) (hw : w.length ≤ maxBufferSize)
    {slot : UInt16} {type : ScalarType} {value : type.Value} {place : Nat}
    (hslot : findField slot fields = some (.scalar type value, place)) (default : type.Value) :
    Table.get ⟨w, w.length - (start + objectLength fields)⟩ type slot default = .ok value := by
  have hposition := h.locateField_eq_some hw hslot
  rw [Table.get_of_some hposition]
  exact (h.standsAt_field hslot).readScalar

/-- **A slot without a field reads as the default.** -/
theorem get_of_none (h : ObjectStands w start fields) (hw : w.length ≤ maxBufferSize)
    {slot : UInt16} (hslot : findField slot fields = none) (type : ScalarType)
    (default : type.Value) :
    Table.get ⟨w, w.length - (start + objectLength fields)⟩ type slot default = .ok default :=
  Table.get_of_none (h.locateField_eq_none hw hslot _)

theorem getWith_of_none (h : ObjectStands w start fields) (hw : w.length ≤ maxBufferSize)
    {slot : UInt16} (hslot : findField slot fields = none) {α : Type}
    (read : Nat → Except WireError α) :
    Table.getWith ⟨w, w.length - (start + objectLength fields)⟩ slot read = .ok none :=
  Table.getWith_of_none (h.locateField_eq_none hw hslot _)

/-- A reference stands where it is found. -/
theorem referenceAt (h : ObjectStands w start fields) (hw : w.length ≤ maxBufferSize)
    {slot : UInt16} {target : Offset} {place : Nat}
    (hslot : findField slot fields = some (.reference target, place)) :
    w.ReferenceAt (w.length - (start + place)) (w.length - target.value) := by
  obtain ⟨hpos, hle⟩ := h.laidOut.target_le hslot
  exact (h.standsAt_field hslot).referenceAt hw hpos hle

/-- **A reference leads to its target**, whatever is there. -/
theorem follow_of_reference (h : ObjectStands w start fields) (hw : w.length ≤ maxBufferSize)
    {slot : UInt16} {target : Offset} {place : Nat}
    (hslot : findField slot fields = some (.reference target, place)) :
    Table.follow ⟨w, w.length - (start + objectLength fields)⟩ slot
      = .ok (some (w.length - target.value)) := by
  have hposition := h.locateField_eq_some hw hslot
  obtain ⟨⟨n, hread, hsum⟩, -, hinside⟩ := h.referenceAt hw hslot
  rw [← hsum] at hinside ⊢
  exact Table.follow_of_some hposition hread hinside

theorem getWith_of_reference (h : ObjectStands w start fields) (hw : w.length ≤ maxBufferSize)
    {slot : UInt16} {target : Offset} {place : Nat}
    (hslot : findField slot fields = some (.reference target, place)) {α : Type} {a : α}
    {read : Nat → Except WireError α} (hread : read (w.length - target.value) = .ok a) :
    Table.getWith ⟨w, w.length - (start + objectLength fields)⟩ slot read = .ok (some a) := by
  rw [Table.getWith_eq (h.follow_of_reference hw hslot)]
  change (read (w.length - target.value)).map some = _
  rw [hread]
  rfl

end ObjectStands

/-! ### Vectors and strings -/

/-- The length of a vector is read where it stands, and right behind that its bytes. -/
theorem read_of_standsAt_vectorBytes {w bytes : Bytes} {place : Nat} {terminated : Bool}
    (hlength : bytes.length < maxBufferSize)
    (h : w.StandsAt place (vectorBytes bytes terminated)) :
    ∃ count : UInt32, readScalar .u32 w (w.length - place) = .ok count ∧
      count.toNat = bytes.length ∧ w.read (w.length - place + 4) bytes.length = .ok bytes := by
  have hmax : maxBufferSize = 2 ^ 31 - 1 := rfl
  obtain ⟨hcount, -⟩ := encode_of_lt (show bytes.length < 2 ^ 32 by omega)
  rw [vectorBytes, ← List.append_assoc] at h
  have hread := h.left.read_right
  rw [ScalarType.length_encode] at hread
  exact ⟨_, h.left.left.readScalar, hcount, hread⟩

/-- A vector that stands somewhere is read there. -/
private theorem readVector_of_standsAt {w bytes : Bytes} {place : Nat} {terminated : Bool}
    (hlength : bytes.length < maxBufferSize) (h : w.StandsAt place (vectorBytes bytes terminated)) :
    readVector w (w.length - place) = .ok bytes := by
  obtain ⟨count, hcount, hlength, hbytes⟩ := read_of_standsAt_vectorBytes hlength h
  rw [readVector, hcount]
  change w.read _ (UInt32.toNat _) = _
  rw [hlength]
  exact hbytes

theorem Item.StandsIn.readVector {w bytes : Bytes} {place : Nat}
    (h : (Item.vector bytes).StandsIn w place) :
    EnvelopeWire.readVector w (w.length - place) = .ok bytes :=
  readVector_of_standsAt h.1 h.2

theorem Item.StandsIn.readString {w : Bytes} {place : Nat} {text : String}
    (h : (Item.string text).StandsIn w place) :
    EnvelopeWire.readString w (w.length - place) = .ok text := by
  have hread := readVector_of_standsAt h.1 h.2
  simp only [EnvelopeWire.readString, hread, bind, Except.bind, utf8?_utf8]
  rfl

end EnvelopeWire
