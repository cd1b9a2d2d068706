import EnvelopeWire.Ensure
import EnvelopeWire.Table.Read
import EnvelopeWire.Table.VTable

/-!
# Tables

An object in a buffer starts with a signed reference to its vtable: the vtable lies that many
bytes in front of the object. The vtable tells where each field is. A `Table` is a buffer with
the position of one object; nothing is decoded in advance, and each accessor goes through the
vtable again.

* `Table.ofPosition`: the object at a position, once it and its vtable are known to lie in the
  buffer.
* `rootTable`: the object that the first four bytes of a buffer refer to.
* `Table.fieldPosition`: where the field in a slot is, for a size that the caller chooses. The
  accessors look with `Table.locateField`, which is the same wherever that finds a field
  (`Table.fieldPosition_eq_ok_iff`).
* `Table.get`, `Table.getTable`, `Table.getString`, `Table.getBytes`: the field in a slot, which
  is a default or nothing when the slot is absent.
* `Record`: the record types that a table can be viewed as.
-/

namespace EnvelopeWire

/-- An object, by the buffer that holds it and its position there. -/
structure Table where
  buffer : Bytes
  position : Nat
deriving DecidableEq, Repr

namespace Table

/-- The vtable of an object. It must lie in the buffer, have an even length that covers its
header, and give the object a length that covers the vtable reference and stays in the buffer. -/
def vtable (t : Table) : Except WireError VTable := do
  let reference ← readScalar .i32 t.buffer t.position
  let start : Int := t.position - Int32.toInt reference
  ensure (0 ≤ start) (WireError.outOfBounds t.position 4 t.buffer.length)
  let length ← readScalar .u16 t.buffer start.toNat
  ensure (4 ≤ length.toNat ∧ length.toNat % 2 = 0) (WireError.badVTable start.toNat .length)
  -- From here on the header of the vtable is known to lie in the buffer.
  let bytes ← t.buffer.read start.toNat length.toNat
  let objectLength ← readScalar .u16 t.buffer (start.toNat + 2)
  ensure (4 ≤ objectLength.toNat) (WireError.badVTable start.toNat .objectLength)
  let _ ← t.buffer.read t.position objectLength.toNat
  return { bytes := bytes, position := start.toNat }

/-- The object at `position`, checked together with its vtable. -/
def ofPosition (buffer : Bytes) (position : Nat) : Except WireError Table :=
  (vtable { buffer := buffer, position := position }).map fun _ =>
    { buffer := buffer, position := position }

/-- Where the field in `slot` starts, or nothing when the slot is absent. A field of `size` bytes
has to lie behind the vtable reference and inside its object. -/
def locateField (t : Table) (slot : UInt16) (size : Nat) : Except WireError (Option Nat) := do
  let v ← t.vtable
  let field := (v.fieldOffset slot).toNat
  if field = 0 then
    return none
  else
    ensure (4 ≤ field ∧ field + size ≤ v.objectLength)
      (WireError.badVTable v.position .fieldOutsideObject)
    return some (t.position + field)

/-- Where the field in `slot` starts, for a size that may be any 64-bit word. Once the offset of the
field is known to lie behind the vtable reference, its sum with the size has to be a word again; the
accessors below ask for so few bytes that it always is. -/
def fieldPosition (t : Table) (slot : UInt16) (size : Nat) :
    Except FieldFailure (Option Nat) := do
  let v ← t.vtable.mapError .wire
  let field := (v.fieldOffset slot).toNat
  ensure (field < 4 ∨ field + size < UInt64.size) FieldFailure.overflow
  (t.locateField slot size).mapError .wire

/-- The scalar in `slot`, or `default` when the slot is absent. -/
def get (t : Table) (type : ScalarType) (slot : UInt16) (default : type.Value) :
    Except WireError type.Value := do
  match ← t.locateField slot type.width with
  | some position => readScalar type t.buffer position
  | none => return default

/-- Where the reference in `slot` leads, or nothing when the slot is absent. A reference counts
from its own position and has to stay in the buffer. -/
def follow (t : Table) (slot : UInt16) : Except WireError (Option Nat) := do
  match ← t.locateField slot 4 with
  | none => return none
  | some position =>
    let distance ← readScalar .u32 t.buffer position
    ensure (position + distance.toNat < t.buffer.length)
      (WireError.outOfBounds position distance.toNat t.buffer.length)
    return some (position + distance.toNat)

/-- What `read` gives at the target of the reference in `slot`, or nothing when it is absent. -/
def getWith {α : Type} (t : Table) (slot : UInt16) (read : Nat → Except WireError α) :
    Except WireError (Option α) := do
  match ← t.follow slot with
  | none => return none
  | some target => return some (← read target)

/-- The object that `slot` refers to. -/
def getTable (t : Table) (slot : UInt16) : Except WireError (Option Table) :=
  t.getWith slot (ofPosition t.buffer)

/-- The string that `slot` refers to. -/
def getString (t : Table) (slot : UInt16) : Except WireError (Option String) :=
  t.getWith slot (readString t.buffer)

/-- The bytes of the vector that `slot` refers to. -/
def getBytes (t : Table) (slot : UInt16) : Except WireError (Option Bytes) :=
  t.getWith slot (readVector t.buffer)

/-! ### What the steps need -/

/-- All that an object needs to have a vtable. -/
theorem vtable_eq_ok_iff {t : Table} {v : VTable} :
    t.vtable = .ok v ↔ ∃ (reference : Int32) (start : Nat) (length objectLength : UInt16)
        (bytes object : Bytes),
      readScalar .i32 t.buffer t.position = .ok reference ∧
      (t.position : Int) - reference.toInt = start ∧
      readScalar .u16 t.buffer start = .ok length ∧
      (4 ≤ length.toNat ∧ length.toNat % 2 = 0) ∧
      t.buffer.read start length.toNat = .ok bytes ∧
      readScalar .u16 t.buffer (start + 2) = .ok objectLength ∧
      4 ≤ objectLength.toNat ∧
      t.buffer.read t.position objectLength.toNat = .ok object ∧
      v = { bytes := bytes, position := start } := by
  simp only [vtable, bind_eq_ok_iff, ensure_eq_ok_iff, exists_const]
  constructor
  · rintro ⟨reference, href, hstart, length, hlength, heven, bytes, hbytes, objectLength, hobject,
      hfour, object, hread, heq⟩
    cases heq
    exact ⟨reference, _, length, objectLength, bytes, object, href,
      (Int.toNat_of_nonneg hstart).symm, hlength, heven, hbytes, hobject, hfour, hread, rfl⟩
  · rintro ⟨reference, start, length, objectLength, bytes, object, href, hstart, hlength, heven,
      hbytes, hobject, hfour, hread, rfl⟩
    have htoNat : ((t.position : Int) - reference.toInt).toNat = start := by
      rw [hstart, Int.toNat_natCast]
    refine ⟨reference, href, by rw [hstart]; exact Int.natCast_nonneg _, ?_⟩
    rw [htoNat]
    exact ⟨length, hlength, heven, bytes, hbytes, objectLength, hobject, hfour, object, hread, rfl⟩

section Fields

variable {t : Table} {v : VTable} {slot : UInt16} {size position : Nat}

/-- An object with a good vtable is found at its position. -/
theorem ofPosition_eq_ok {b : Bytes} (hv : vtable ⟨b, position⟩ = .ok v) :
    ofPosition b position = .ok ⟨b, position⟩ := by
  rw [ofPosition, hv]
  rfl

/-- A zero entry makes the field absent. -/
theorem locateField_eq_none (hv : t.vtable = .ok v) (hslot : v.fieldOffset slot = 0) :
    t.locateField slot size = .ok none := by
  rw [locateField, hv]
  change (if (v.fieldOffset slot).toNat = 0 then _ else _) = _
  rw [hslot]
  rfl

/-- A field that fits in its object is found. -/
theorem locateField_eq_some (hv : t.vtable = .ok v) (hslot : 4 ≤ (v.fieldOffset slot).toNat)
    (hsize : (v.fieldOffset slot).toNat + size ≤ v.objectLength) :
    t.locateField slot size = .ok (some (t.position + (v.fieldOffset slot).toNat)) := by
  rw [locateField, hv]
  change (if (v.fieldOffset slot).toNat = 0 then _ else ensure _ _ >>= _) = _
  rw [if_neg (by omega), (ensure_eq_ok_iff (u := ())).mpr ⟨hslot, hsize⟩]
  rfl

/-- The place of a field is told exactly where it is found: a field inside its object ends at a
number that is far smaller than `2 ^ 64`. -/
theorem fieldPosition_eq_ok_iff {found : Option Nat} :
    t.fieldPosition slot size = .ok found ↔ t.locateField slot size = .ok found := by
  rw [fieldPosition, bind_eq_ok_iff]
  simp only [mapError_eq_ok_iff, bind_eq_ok_iff, ensure_eq_ok_iff]
  constructor
  · rintro ⟨v, -, -, -, hfound⟩
    exact hfound
  · intro hfound
    obtain ⟨v, hv, hfield⟩ := bind_eq_ok_iff.mp hfound
    refine ⟨v, hv, (), ?_, hfound⟩
    change (if (v.fieldOffset slot).toNat = 0 then _ else _) = _ at hfield
    split at hfield
    case isTrue hzero => exact .inl (by omega)
    case isFalse =>
      obtain ⟨_, hin, -⟩ := bind_eq_ok_iff.mp hfield
      have hend := (ensure_eq_ok_iff.mp hin).2
      have hlength : v.objectLength < UInt16.size := UInt16.toNat_lt _
      exact .inr (Nat.lt_trans (Nat.lt_of_le_of_lt hend hlength) (by decide))

/-- An absent scalar is its default. -/
theorem get_of_none {type : ScalarType} {default : type.Value}
    (h : t.locateField slot type.width = .ok none) : t.get type slot default = .ok default := by
  rw [get, h]
  rfl

/-- A scalar that is there is read where its field starts. -/
theorem get_of_some {type : ScalarType} {default : type.Value}
    (h : t.locateField slot type.width = .ok (some position)) :
    t.get type slot default = readScalar type t.buffer position := by
  rw [get, h]
  rfl

/-- Nothing is read behind an absent reference. -/
theorem getWith_of_none {α : Type} {read : Nat → Except WireError α}
    (h : t.locateField slot 4 = .ok none) : t.getWith slot read = .ok none := by
  rw [getWith, follow, h]
  rfl

/-- A reference that stays in the buffer is followed. -/
theorem follow_of_some {distance : UInt32} (h : t.locateField slot 4 = .ok (some position))
    (hdistance : readScalar .u32 t.buffer position = .ok distance)
    (htarget : position + distance.toNat < t.buffer.length) :
    t.follow slot = .ok (some (position + distance.toNat)) := by
  rw [follow, h]
  change (readScalar .u32 t.buffer position >>= _) = _
  rw [hdistance]
  change (ensure (position + distance.toNat < _) _ >>= _) = _
  rw [(ensure_eq_ok_iff (u := ())).mpr htarget]
  rfl

/-- What is read where a reference leads. -/
theorem getWith_eq {α : Type} {read : Nat → Except WireError α} {found : Option Nat}
    (h : t.follow slot = .ok found) :
    t.getWith slot read = found.elim (.ok none) fun target => (read target).map some := by
  rw [getWith, h]
  cases found with
  | none => rfl
  | some target =>
    change (read target >>= fun a => pure (some a)) = (read target).map some
    cases read target <;> rfl

end Fields

end Table

/-- The object that the first four bytes of a buffer refer to. -/
def rootTable (buffer : Bytes) : Except WireError Table := do
  ensure (4 ≤ buffer.length) (WireError.tooShort buffer.length)
  let root ← readScalar .u32 buffer 0
  Table.ofPosition buffer root.toNat

/-- A record type that a table can be viewed as. `ofTable` checks the fields of the record, so
that later accesses to them cannot fail. -/
class Record (ρ : Type) where
  /-- The table as a record, or the first field that cannot be read. -/
  ofTable : Table → Except WireError ρ

instance : Record Table := ⟨.ok⟩

/-- The object that `slot` refers to, viewed as a record. -/
def Table.getRecord (ρ : Type) [Record ρ] (t : Table) (slot : UInt16) :
    Except WireError (Option ρ) := do
  match ← t.getTable slot with
  | none => return none
  | some target => return some (← Record.ofTable target)

end EnvelopeWire
