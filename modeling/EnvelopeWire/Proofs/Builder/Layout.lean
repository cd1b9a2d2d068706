import EnvelopeWire.Proofs.Builder.Draft
import EnvelopeWire.Proofs.Bytes.Standing

/-!
# The layout of an object

An object is laid out back to front from the number of bytes in front of which it starts, a
multiple of eight: its fields in the order in which they are written, each on a boundary of its own
width, and in front of them the reference to the vtable. Where a field lies depends on the widths
of the fields written before it only, and so does the vtable.

The fields of an object are a list, last one first, as in a draft.

* `fieldBytes`, `objectBytes`, `vtableOf`: the bytes of the fields, the object and its vtable.
* `vtableBytes_marks`: the vtable that a builder computes from its marks is `vtableOf`.
* `standsAt_of_findField`: each field stands at its place in the object.
-/

namespace EnvelopeWire

/-- What is written in a slot. -/
inductive FieldValue
  | scalar (type : ScalarType) (value : type.Value)
  | reference (target : Offset)

/-- The number of bytes that a value takes, on whose multiples it lies. -/
def FieldValue.width : FieldValue → Nat
  | scalar type _ => type.width
  | reference _ => 4

/-- The bytes of a value that is written at `place`. -/
def FieldValue.bytes (place : Nat) : FieldValue → Bytes
  | scalar type value => type.encode value
  | reference target => littleEndian 4 (place - target.value)

/-- A field of an object. -/
structure Field where
  slot : UInt16
  value : FieldValue

namespace FieldValue

/-- A value takes as many bytes as it is wide, wherever it stands. -/
@[simp]
theorem length_bytes (place : Nat) (v : FieldValue) : (v.bytes place).length = v.width := by
  cases v with
  | scalar type value => exact type.length_encode value
  | reference target => exact length_littleEndian _ _

theorem width_pos (v : FieldValue) : 0 < v.width := by
  cases v with
  | scalar type value => exact type.width_pos
  | reference target => exact Nat.succ_pos 3

theorem width_dvd (v : FieldValue) : v.width ∣ 8 := by
  cases v with
  | scalar type value => cases type <;> simp only [width, ScalarType.width] <;> decide
  | reference target => simp only [width]; decide

/-- What lies on a multiple of eight lies on a multiple of every width. -/
theorem mod_width (v : FieldValue) {n : Nat} (h : n % 8 = 0) : n % v.width = 0 :=
  Nat.mod_eq_zero_of_dvd (Nat.dvd_trans v.width_dvd (Nat.dvd_of_mod_eq_zero h))

end FieldValue

/-! ### Places -/

/-- The number of bytes that `fields` take, with the padding behind each of them. -/
def extent : List Field → Nat
  | [] => 0
  | f :: fields =>
    extent fields + padding (extent fields + f.value.width) f.value.width + f.value.width

/-- The length of an object, which ends with the reference to its vtable. -/
def objectLength (fields : List Field) : Nat :=
  extent fields + padding (extent fields + 4) 4 + 4

/-- The bytes of the fields of an object in front of `start` bytes. -/
def fieldBytes (start : Nat) : List Field → Bytes
  | [] => []
  | f :: fields => f.value.bytes (start + extent (f :: fields))
      ++ (List.replicate (padding (extent fields + f.value.width) f.value.width) 0
        ++ fieldBytes start fields)

/-- The bytes of an object in front of `start` bytes whose vtable is at `vtable`. -/
def objectBytes (start vtable : Nat) (fields : List Field) : Bytes :=
  vtableReference vtable (start + objectLength fields)
    ++ (List.replicate (padding (extent fields + 4) 4) 0 ++ fieldBytes start fields)

/-- The fields take the extent of the object. -/
@[simp]
theorem length_fieldBytes (start : Nat) (fields : List Field) :
    (fieldBytes start fields).length = extent fields := by
  induction fields with
  | nil => rfl
  | cons f fields ih =>
    simp only [fieldBytes, extent, List.length_append, List.length_replicate,
      FieldValue.length_bytes, ih]
    omega

/-- The bytes of an object are as many as its vtable says. -/
@[simp]
theorem length_objectBytes (start vtable : Nat) (fields : List Field) :
    (objectBytes start vtable fields).length = objectLength fields := by
  simp only [objectBytes, objectLength, List.length_append, List.length_replicate,
    length_vtableReference, length_fieldBytes]
  omega

/-- The padding in an object does not depend on where it starts. -/
theorem padding_start {start : Nat} (hstart : start % 8 = 0) (n : Nat) (v : FieldValue) :
    padding (start + n) v.width = padding n v.width := by
  rw [Nat.add_comm, padding_add_left (v.mod_width hstart)]

/-- The value in a slot, with the number of bytes from there to where the object starts. -/
def findField (slot : UInt16) : List Field → Option (FieldValue × Nat)
  | [] => none
  | f :: fields =>
    if f.slot = slot then some (f.value, extent (f :: fields)) else findField slot fields

/-- A field lies behind the reference to the vtable, with all its bytes. -/
theorem le_of_findField {slot : UInt16} {fields : List Field} {v : FieldValue} {place : Nat}
    (h : findField slot fields = some (v, place)) : v.width ≤ place ∧ place ≤ extent fields := by
  induction fields with
  | nil => cases h
  | cons f fields ih =>
    rw [findField] at h
    split at h
    · cases h
      refine ⟨?_, Nat.le_refl _⟩
      rw [extent]
      exact Nat.le_add_left _ _
    · obtain ⟨hwidth, hplace⟩ := ih h
      refine ⟨hwidth, Nat.le_trans hplace ?_⟩
      rw [extent, Nat.add_assoc]
      exact Nat.le_add_right _ _

/-- **Each field stands at its place.** -/
theorem standsAt_of_findField {w : Bytes} {start : Nat} {slot : UInt16} {fields : List Field}
    {v : FieldValue} {place : Nat}
    (hw : w.StandsAt (start + extent fields) (fieldBytes start fields))
    (h : findField slot fields = some (v, place)) :
    w.StandsAt (start + place) (v.bytes (start + place)) := by
  induction fields with
  | nil => cases h
  | cons f fields ih =>
    rw [findField] at h
    split at h
    · cases h
      exact hw.left
    · refine ih ?_ h
      have hrest := hw.right.right
      rw [FieldValue.length_bytes, List.length_replicate] at hrest
      have hplace : start + extent (f :: fields) - f.value.width
          - padding (extent fields + f.value.width) f.value.width = start + extent fields := by
        rw [extent]
        omega
      rwa [hplace] at hrest

/-- What is written in a slot, as far as `fields` tell. -/
def valueIn (fields : List Field) (slot : UInt16) : Option FieldValue :=
  (fields.find? (·.slot == slot)).map (·.value)

/-- The value in a slot is that of the field that is found there. -/
theorem valueIn_eq (fields : List Field) (slot : UInt16) :
    valueIn fields slot = (findField slot fields).map (·.1) := by
  induction fields with
  | nil => rfl
  | cons f fields ih =>
    rw [valueIn, List.find?_cons, findField]
    by_cases hslot : f.slot = slot
    · rw [if_pos hslot, beq_iff_eq.mpr hslot]
      rfl
    · rw [if_neg hslot, beq_eq_false_iff_ne.mpr hslot]
      exact ih

theorem valueIn_eq_none_iff {fields : List Field} {slot : UInt16} :
    valueIn fields slot = none ↔ findField slot fields = none := by
  rw [valueIn_eq, Option.map_eq_none_iff]

theorem valueIn_eq_some_iff {fields : List Field} {slot : UInt16} {v : FieldValue} :
    valueIn fields slot = some v ↔ ∃ place, findField slot fields = some (v, place) := by
  rw [valueIn_eq]
  simp

/-! ### Vtables -/

/-- The number of slots that the vtable of an object covers. -/
def covered : List Field → Nat
  | [] => 0
  | f :: fields => max (f.slot.toNat + 1) (covered fields)

/-- The entry of a slot in the vtable of an object of `length` bytes: where its field is in the
object. -/
def vtableEntry (length : Nat) (fields : List Field) (slot : UInt16) : Option UInt16 :=
  (findField slot fields).map fun found => UInt16.ofNat (length - found.2)

/-- The entries of the vtable of an object, in slot order, zero where there is no field. -/
def vtableEntries (fields : List Field) : List UInt16 :=
  (List.range (covered fields)).map fun slot =>
    (vtableEntry (objectLength fields) fields (UInt16.ofNat slot)).getD 0

/-- The vtable of an object. -/
def vtableOf (fields : List Field) : Bytes :=
  ScalarType.u16.encode (UInt16.ofNat (4 + 2 * covered fields))
    ++ (ScalarType.u16.encode (UInt16.ofNat (objectLength fields))
      ++ (vtableEntries fields).flatMap fun entry => ScalarType.u16.encode entry)

/-- A vtable is its header and its entries, each of two bytes. -/
theorem vtableOf_eq (fields : List Field) :
    vtableOf fields
      = (ScalarType.u16.encode (UInt16.ofNat (4 + 2 * covered fields))
        ++ ScalarType.u16.encode (UInt16.ofNat (objectLength fields)))
        ++ (vtableEntries fields).flatMap fun entry => ScalarType.u16.encode entry :=
  (List.append_assoc _ _ _).symm

/-- A vtable has a header and an entry for each slot up to the last one with a field. -/
@[simp]
theorem length_vtableOf (fields : List Field) :
    (vtableOf fields).length = 4 + 2 * covered fields := by
  have hentries (entries : List UInt16) :
      (entries.flatMap fun entry => ScalarType.u16.encode entry).length = 2 * entries.length := by
    induction entries with
    | nil => rfl
    | cons entry entries ih =>
      rw [List.flatMap_cons, List.length_append, ih, ScalarType.length_encode, List.length_cons,
        ScalarType.width]
      omega
  rw [vtableOf, List.length_append, List.length_append, hentries, ScalarType.length_encode,
    ScalarType.length_encode, vtableEntries, List.length_map, List.length_range, ScalarType.width]
  omega

/-- The marks that a builder makes of the fields of an object in front of `start` bytes. -/
def marks (start : Nat) : List Field → List FieldMark
  | [] => []
  | f :: fields => { slot := f.slot, offset := start + extent (f :: fields) } :: marks start fields

/-- Every field has an entry. -/
theorem slot_lt_covered {f : Field} {fields : List Field} (h : f ∈ fields) :
    f.slot.toNat < covered fields := by
  induction fields with
  | nil => cases h
  | cons g fields ih =>
    rw [covered]
    rcases List.mem_cons.mp h with rfl | hmem
    · omega
    · have := ih hmem
      omega

/-- No vtable has more entries than the object has slots. -/
theorem covered_le {fields : List Field} {count : Nat} (h : ∀ f ∈ fields, f.slot.toNat < count) :
    covered fields ≤ count := by
  induction fields with
  | nil => exact Nat.zero_le _
  | cons f fields ih =>
    obtain ⟨hf, hfields⟩ := List.forall_mem_cons.mp h
    exact Nat.max_le.mpr ⟨hf, ih hfields⟩

/-- Nothing is found exactly in a slot without a field. -/
theorem findField_eq_none_iff {slot : UInt16} {fields : List Field} :
    findField slot fields = none ↔ ∀ f ∈ fields, f.slot ≠ slot := by
  induction fields with
  | nil => simp [findField]
  | cons f fields ih =>
    rw [findField, List.forall_mem_cons, ← ih]
    by_cases hslot : f.slot = slot <;> simp [hslot]

/-- A builder counts entries from its marks as they are counted from the fields. -/
private theorem coveredSlots_marks (start : Nat) (fields : List Field) :
    Builder.coveredSlots (marks start fields) = covered fields := by
  have hfold (count : Nat) : (marks start fields).foldl
      (fun count field => max count (field.slot.toNat + 1)) count = max count (covered fields) := by
    induction fields generalizing count with
    | nil => exact (Nat.max_eq_left (Nat.zero_le count)).symm
    | cons f fields ih =>
      rw [marks, List.foldl_cons, ih, covered, Nat.max_assoc]
  rw [Builder.coveredSlots, hfold, Nat.max_eq_right (Nat.zero_le _)]

theorem forall_mem_marks {start : Nat} {fields : List Field} {p : UInt16 → Prop} :
    (∀ m ∈ marks start fields, p m.slot) ↔ ∀ f ∈ fields, p f.slot := by
  induction fields with
  | nil => simp [marks]
  | cons f fields ih => rw [marks, List.forall_mem_cons, List.forall_mem_cons, ih]

/-- An object is longer than its fields by the vtable reference at least. -/
theorem extent_le_objectLength (fields : List Field) : extent fields + 4 ≤ objectLength fields := by
  rw [objectLength]
  omega

/-- Setting the entries of the marks, one after the other, gives each slot the entry of its field
and leaves the other slots alone. -/
private theorem foldlM_marks (start : Nat) {length : Nat} (hlength : length < 65536)
    {fields : List Field} (hextent : extent fields ≤ length)
    (hnodup : (fields.map (·.slot)).Nodup) (entries : Array UInt16) (hsize : entries.size ≤ 65536)
    (hslots : ∀ f ∈ fields, f.slot.toNat < entries.size) :
    ∃ entries', (marks start fields).foldlM
        (fun entries field => do
          let distance ← difference (start + length) field.offset
          Builder.setEntry entries field.slot (← word16 distance)) entries
        = .ok entries' ∧ entries'.size = entries.size ∧
      ∀ i, i < entries.size → entries'.getD i 0
        = (vtableEntry length fields (UInt16.ofNat i)).getD (entries.getD i 0) := by
  induction fields generalizing entries with
  | nil => exact ⟨entries, rfl, rfl, fun i _ => rfl⟩
  | cons f fields ih =>
    obtain ⟨hfresh, hrest⟩ := List.nodup_cons.mp hnodup
    obtain ⟨hslot, hslots'⟩ := List.forall_mem_cons.mp hslots
    have hle : extent fields ≤ length := by
      rw [extent] at hextent
      omega
    have hdistance : difference (start + length) (start + extent (f :: fields))
        = .ok (length - extent (f :: fields)) :=
      difference_eq_ok_iff.mpr ⟨by omega, by omega⟩
    have hword : word16 (length - extent (f :: fields))
        = .ok (UInt16.ofNat (length - extent (f :: fields))) :=
      word16_eq_ok_iff.mpr ⟨by omega, rfl⟩
    obtain ⟨entries', hfold, hsize', hentries⟩ := ih hle hrest
      (entries.setIfInBounds f.slot.toNat (UInt16.ofNat (length - extent (f :: fields))))
      (by simpa using hsize) (by simpa using hslots')
    rw [Array.size_setIfInBounds] at hsize'
    refine ⟨entries', ?_, hsize', fun i hi => ?_⟩
    · rw [marks, List.foldlM_cons, hdistance]
      change (word16 _ >>= _) >>= _ = _
      rw [hword]
      change Builder.setEntry _ _ _ >>= _ = _
      rw [Builder.setEntry, if_pos hslot]
      exact hfold
    · rw [hentries i (by simpa using hi), vtableEntry, vtableEntry, findField]
      have htoNat : (UInt16.ofNat i).toNat = i :=
        UInt16.toNat_ofNat_of_lt (Nat.lt_of_lt_of_le hi hsize)
      -- The marks are gone through last one first, and no slot comes up twice, so the entry that
      -- is set for a slot is not set again.
      by_cases hslot : f.slot = UInt16.ofNat i
      · have hnone : findField (UInt16.ofNat i) fields = none := by
          refine findField_eq_none_iff.mpr fun g hg heq => hfresh ?_
          exact List.mem_map.mpr ⟨g, hg, heq.trans hslot.symm⟩
        rw [if_pos hslot, hnone, hslot, htoNat]
        simp [hi]
      · have hne : f.slot.toNat ≠ i := fun heq => hslot (by rw [← heq, UInt16.ofNat_toNat])
        rw [if_neg hslot]
        simp [hi, hne]

/-- The vtable that a builder computes from its marks is the one of the object. -/
theorem vtableBytes_marks {start : Nat} {fields : List Field}
    (hlength : objectLength fields ≤ 65535) (hcovered : covered fields ≤ maxFields)
    (hnodup : (fields.map (·.slot)).Nodup) :
    Builder.vtableBytes (start + objectLength fields) (objectLength fields) (marks start fields)
      = .ok (vtableOf fields) := by
  have hmax : maxFields = 32765 := rfl
  have hextent := extent_le_objectLength fields
  obtain ⟨entries, hfold, hsize, hentries⟩ := foldlM_marks start
    (show objectLength fields < 65536 by omega) (show extent fields ≤ objectLength fields by omega)
    hnodup (Array.replicate (covered fields) 0) (by simp; omega)
    (fun f hf => by simpa using slot_lt_covered hf)
  -- All entries start as zero, so those that are not set are the ones of absent slots.
  have htoList : entries.toList = vtableEntries fields := by
    rw [Array.size_replicate] at hsize hentries
    refine List.ext_getElem (by simp [vtableEntries, hsize]) fun i hi hi' => ?_
    have hin : i < entries.size := by simpa using hi
    have hentry := hentries i (by omega)
    simp only [Array.getD_eq_getD_getElem?, Array.getElem?_eq_getElem hin, Option.getD_some,
      Array.getElem?_replicate, hsize ▸ hin, if_true] at hentry
    simp [vtableEntries, hentry]
  rw [Builder.vtableBytes, Builder.vtableEntries, coveredSlots_marks, hfold]
  change (word16 (4 + 2 * entries.size) >>= _) = _
  rw [hsize, Array.size_replicate, word16_eq_ok_iff.mpr ⟨by omega, rfl⟩]
  change (word16 (objectLength fields) >>= _) = _
  rw [word16_eq_ok_iff.mpr ⟨by omega, rfl⟩, htoList]
  rfl

end EnvelopeWire
