import EnvelopeWire.Bytes.Utf8
import EnvelopeWire.Scalar.Basic
import EnvelopeWire.Builder.Storage

/-!
# Builders

A builder writes a buffer back to front: strings, vectors and inner objects first, then the
objects that refer to them, and the root reference last. What has been written is named by an
`Offset`, its distance from the end of the buffer, which later writes do not change.

An object is opened with a number of slots, its fields are pushed one by one, and closing it
writes the vtable that tells where the fields are. Objects whose vtables are equal share one.

A `Build` is a step of such a construction: it takes a builder and gives a result with the
builder after it, or the `Failure` that stopped it.
-/

namespace EnvelopeWire

/-- A place in a buffer under construction, as the number of bytes from there to the end. -/
structure Offset where
  value : Nat
deriving DecidableEq, Repr

/-- How a builder is set up. -/
structure BuilderOptions where
  /-- The number of cells to allocate at first; at most `maxInitialCapacity` are. -/
  initialCapacity : Nat := 1024
  /-- Whether a scalar is written even when it equals its default. -/
  forceDefaults : Bool := false
deriving DecidableEq, Repr

/-- What a builder is in the middle of. -/
inductive Phase
  | idle
  /-- An object with `fields` slots is open; `start` bytes were written when it was opened. -/
  | building (start : Nat) (fields : UInt16)
  | finished
deriving DecidableEq, Repr

/-- A field of the open object: its slot, and how many bytes were written after it was. -/
structure FieldMark where
  slot : UInt16
  offset : Nat
deriving DecidableEq, Repr

/-! ### The rules -/

/-- `op` needs that no object is open and the buffer is not finished. -/
def Phase.checkIdle (phase : Phase) (op : Operation) : Except Failure Unit :=
  match phase with
  | .idle => .ok ()
  | .building _ _ => .error (.misuse (.objectOpen op))
  | .finished => .error (.misuse (.alreadyFinished op))

/-- An object with `fields` slots can be opened only where none is open, and not too many slots
can be asked for. -/
def Phase.checkStart (phase : Phase) (fields : UInt16) : Except Failure Unit :=
  match phase with
  | .idle => ensure (fields.toNat ≤ maxFields) (Failure.misuse (.tooManyFields fields.toNat))
  | .building _ _ => .error (.misuse .nestedObject)
  | .finished => .error (.misuse (.alreadyFinished .startObject))

/-- `op` needs an open object that has a slot number `slot` which is not among the fields that
`marks` says are written. -/
def Phase.checkSlot (phase : Phase) (marks : List FieldMark) (op : Operation) (slot : UInt16) :
    Except Failure Unit :=
  match phase with
  | .building _ fields => do
    ensure (slot < fields) (Failure.misuse (.slotOutOfRange op slot.toNat fields.toNat))
    ensure (marks.all (·.slot != slot)) (Failure.misuse (.slotWrittenTwice op slot.toNat))
  | .idle => .error (.misuse (.noOpenObject op))
  | .finished => .error (.misuse (.alreadyFinished op))

/-- Where the open object starts, which is to be closed. -/
def Phase.openStart (phase : Phase) : Except Failure Nat :=
  match phase with
  | .building start _ => .ok start
  | .idle => .error (.misuse (.noOpenObject .endObject))
  | .finished => .error (.misuse (.alreadyFinished .endObject))

/-- The data can be taken, by a call named `op`, only when the buffer is finished. -/
def Phase.checkFinished (phase : Phase) (op : Operation) : Except Failure Unit :=
  ensure (phase = .finished) (Failure.misuse (.notFinished op))

/-- A buffer under construction. -/
structure Builder where
  storage : Storage
  /-- The widest alignment that anything written so far asked for. -/
  minAlign : Nat
  forceDefaults : Bool
  phase : Phase
  /-- The fields of the open object, last one first. -/
  fields : List FieldMark
  /-- The vtables written so far, first one first. -/
  vtables : List Nat
  /-- How many objects share the vtable of an earlier one. -/
  vtablesReused : Nat

/-- The least number of bytes that brings `size` to a multiple of `alignment`. -/
def padding (size alignment : Nat) : Nat := (alignment - size % alignment) % alignment

namespace Builder

/-- A builder that has written nothing. -/
def withOptions (options : BuilderOptions) : Builder where
  storage := Storage.allocate options.initialCapacity
  minAlign := 1
  forceDefaults := options.forceDefaults
  phase := .idle
  fields := []
  vtables := []
  vtablesReused := 0

/-- The number of bytes written. -/
def used (b : Builder) : Nat := b.storage.used

/-- The bytes written. -/
def written (b : Builder) : Bytes := b.storage.written

/-- The number of vtables written. -/
def vtableCount (b : Builder) : Nat := b.vtables.length

/-- Whether the buffer is finished. -/
def isFinished (b : Builder) : Bool := b.phase == .finished

/-! ### Writing -/

/-- The builder with its storage changed by `f`. -/
def onStorage (b : Builder) (f : Storage → Except Failure Storage) : Except Failure Builder :=
  match b with
  | ⟨storage, minAlign, forceDefaults, phase, fields, vtables, vtablesReused⟩ =>
    (f storage).map fun storage =>
      ⟨storage, minAlign, forceDefaults, phase, fields, vtables, vtablesReused⟩

/-- Writes `bytes` in front of what is written. -/
def prepend (b : Builder) (bytes : Bytes) : Except Failure Builder :=
  b.onStorage (·.prepend bytes)

/-- Writes zeros until `size` more bytes end on a multiple of `alignment`. -/
def align (b : Builder) (size alignment : Nat) : Except Failure Builder :=
  let zeros := padding (b.used + size) alignment
  prepend { b with minAlign := max b.minAlign alignment } (List.replicate zeros 0)

/-- Writes a scalar on a boundary of its own width. -/
def pushScalar (b : Builder) (type : ScalarType) (value : type.Value) :
    Except Failure Builder := do
  let b ← b.align type.width type.width
  b.prepend (type.encode value)

/-- Writes a reference to `target`, which has to lie in what is written; the reference counts
from its own place. -/
def pushReference (b : Builder) (target : Offset) : Except Failure Builder := do
  let b ← b.align 4 4
  ensure (0 < target.value ∧ target.value ≤ b.used) (Failure.misuse (.danglingOffset target.value))
  let distance ← difference (b.used + 4) target.value
  b.prepend (littleEndian 4 distance)

/-- Writes a vector: the count of its bytes, the bytes, and a zero byte if it is `terminated`. -/
def pushVector (b : Builder) (bytes : Bytes) (terminated : Bool) : Except Failure Builder := do
  ensure (bytes.length < maxBufferSize) (Failure.vectorLimit bytes.length)
  let b ← b.align (bytes.length + terminated.toNat) 4
  let b ← b.prepend (bytes ++ List.replicate terminated.toNat 0)
  b.pushScalar .u32 (UInt32.ofNat bytes.length)

/-- `op` needs that no object is open and the buffer is not finished. -/
def checkIdle (b : Builder) (op : Operation) : Except Failure Unit :=
  b.phase.checkIdle op

/-- `op` needs an open object with an unwritten slot number `slot`. -/
def checkSlot (b : Builder) (op : Operation) (slot : UInt16) : Except Failure Unit :=
  b.phase.checkSlot b.fields op slot

/-- Notes that the field in `slot` is what was written last. -/
def mark (b : Builder) (slot : UInt16) : Builder :=
  { b with fields := { slot := slot, offset := b.used } :: b.fields }

/-! ### Vtables -/

/-- The number of slots that a vtable for `fields` covers: up to the highest one written. -/
def coveredSlots (fields : List FieldMark) : Nat :=
  fields.foldl (fun count field => max count (field.slot.toNat + 1)) 0

/-- The entries with `entry` for `slot`, which has to be one of the slots that they cover. -/
def setEntry (entries : Array UInt16) (slot entry : UInt16) : Except Failure (Array UInt16) :=
  if slot.toNat < entries.size then .ok (entries.setIfInBounds slot.toNat entry)
  else .error .outOfRange

/-- The entries of the vtable of an object that ends at `object`: for each field its distance
from the start of the object, zero for the other slots. -/
def vtableEntries (object : Nat) (fields : List FieldMark) : Except Failure (Array UInt16) :=
  fields.foldlM
    (fun entries field => do
      let distance ← difference object field.offset
      setEntry entries field.slot (← word16 distance))
    (Array.replicate (coveredSlots fields) 0)

/-- The vtable of an object of `length` bytes that ends at `object`. -/
def vtableBytes (object length : Nat) (fields : List FieldMark) : Except Failure Bytes := do
  let entries ← vtableEntries object fields
  let size ← word16 (4 + 2 * entries.size)
  let length ← word16 length
  return (size :: length :: entries.toList).flatMap fun word => ScalarType.u16.encode word

/-- The first of the vtables in `offsets` that reads `vtable` in the storage. -/
def findVTable (s : Storage) (vtable : Bytes) : List Nat → Except Failure (Option Nat)
  | [] => .ok none
  | offset :: offsets => do
    if ← s.holds offset vtable then
      return some offset
    else
      findVTable s vtable offsets

/-- Where `vtable` stands: in the place of an earlier vtable that reads the same, or else in
front of everything written so far. -/
def placeVTable (b : Builder) (vtable : Bytes) : Except Failure (Nat × Builder) := do
  match ← findVTable b.storage vtable b.vtables with
  | some offset => return (offset, { b with vtablesReused := b.vtablesReused + 1 })
  | none =>
    let b ← b.prepend vtable
    return (b.used, { b with vtables := b.vtables ++ [b.used] })

/-- Closes the object that was opened after `start` bytes: writes the reference to its vtable,
finds or writes that vtable, and fills in the reference. -/
def closeObject (b : Builder) (start : Nat) : Except Failure (Offset × Builder) := do
  -- The vtable may yet have to be written in front of the object, so the reference waits.
  let b ← b.pushScalar .i32 0
  let object := b.used
  let length ← difference object start
  ensure (length ≤ 65535) (Failure.misuse (.objectTooLarge length))
  let vtable ← vtableBytes object length b.fields
  let (place, b) ← b.placeVTable vtable
  let b ← b.onStorage
    (·.overwrite object (ScalarType.i32.encode (Int32.ofInt ((place : Int) - object))))
  return (⟨object⟩, { b with fields := [], phase := .idle })

end Builder

/-! ### The calls -/

/-- A step in the construction of a buffer. -/
abbrev Build := StateT Builder (Except Failure)

namespace Build

/-- Forgets all that was written, keeping the cells. -/
def reset : Build Unit := modify fun b =>
  { b with
    storage := b.storage.clear
    minAlign := 1
    phase := .idle
    fields := []
    vtables := []
    vtablesReused := 0 }

/-- Opens an object with `fields` slots. Every object starts on a boundary of eight bytes, so that
its layout depends on the order of its fields only. -/
def startObject (fields : UInt16) : Build Unit := fun b => do
  b.phase.checkStart fields
  let b ← b.align 0 8
  return ((), { b with fields := [], phase := .building b.used fields })

/-- Writes a scalar field, unless the value agrees with the default and defaults are not forced. -/
def pushSlot (type : ScalarType) (slot : UInt16) (value default : type.Value) : Build Unit :=
  fun b => do
    b.checkSlot .pushSlot slot
    if type.agrees value default && !b.forceDefaults then
      return ((), b)
    else
      let b ← b.pushScalar type value
      return ((), b.mark slot)

/-- Writes a field that refers to an earlier string, vector or object. -/
def pushSlotOffset (slot : UInt16) (target : Offset) : Build Unit := fun b => do
  b.checkSlot .pushSlotOffset slot
  let b ← b.pushReference target
  return ((), b.mark slot)

/-- Closes the open object. -/
def endObject : Build Offset := fun b => do
  let start ← b.phase.openStart
  b.closeObject start

/-- Writes a string, followed by a zero byte. -/
def createString (text : String) : Build Offset := fun b => do
  b.checkIdle .createString
  let b ← b.pushVector (utf8 text) true
  return (⟨b.used⟩, b)

/-- Writes a vector of bytes. -/
def createByteVector (bytes : Bytes) : Build Offset := fun b => do
  b.checkIdle .createByteVector
  let b ← b.pushVector bytes false
  return (⟨b.used⟩, b)

/-- Writes the reference to the root and ends the construction. The whole buffer is padded to the
widest alignment used in it. -/
def finish (root : Offset) : Build Unit := fun b => do
  b.checkIdle .finish
  -- Places count from the end; only with the length on a boundary do they count from the front.
  let b ← b.align 4 b.minAlign
  let b ← b.pushReference root
  return ((), { b with phase := .finished })

/-- The finished buffer, for a caller that names its call `op`. -/
def finishedData (op : Operation) : Build Bytes := fun b => do
  b.phase.checkFinished op
  return (b.written, b)

end Build

end EnvelopeWire
