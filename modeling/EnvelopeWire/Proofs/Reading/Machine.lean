import EnvelopeWire.Proofs.Reading.Format

/-!
# A reader in machine words

The reader once more, step by step as a machine takes it: positions and lengths are 64-bit words,
a sum, a difference or a product that leaves its word traps, and so does an index or a slice that
leaves its bytes, a conversion that loses bits, and a copy between ranges of different lengths.
Where an operation checks by itself, such as the sum in `sliceAt`, it gives nothing instead, and
the read fails with an error.

This reader never traps, and what it gives is what the plain reader gives. The one difference is
beyond any memory: where a buffer comes within `2 ^ 31` bytes of the longest that there can be, the
start of a vtable is computed in signed words that it may leave, which is reported as another error
than the plain reader has.

* `Machine.Follows`: a computation does not trap, and gives what a plain one gives.
* `Machine.vtable_follows`, `Machine.get_follows`, `Machine.getWith_follows`: reads of an object.
-/

namespace EnvelopeWire

/-- Why a machine stops in the middle of a computation. -/
inductive Trap
  /-- A number leaves its word. -/
  | overflow
  /-- An index or a slice leaves the bytes that it is taken of. -/
  | outOfRange
  /-- A conversion to a narrower word loses bits. -/
  | truncation
  /-- Bytes are copied to a place of another length. -/
  | lengthMismatch
deriving DecidableEq, Repr

/-- A computation of a machine, which may trap, fail with an error or give a result. -/
abbrev Machine (ε α : Type) := ExceptT ε (Except Trap) α

namespace Machine

variable {ε ε' α β : Type}

/-- Stops. -/
def trap (cause : Trap) : Machine ε α := ExceptT.mk (.error cause)

/-- A result or an error that was come by without trapping. -/
def ofExcept (x : Except ε α) : Machine ε α := ExceptT.mk (.ok x)

/-- What `x` gives, be it a result or an error. -/
def outcome (x : Machine ε α) : Machine ε' (Except ε α) := ExceptT.lift x

/-- `x` with its errors as those of another kind. -/
def checked (x : Machine WireError α) : Machine EnvelopeError α := do
  ofExcept (Envelope.checked (← outcome x))

/-! ### Words and bytes -/

/-- The number `n`, which has to fit in a word of so many bits. -/
def word (bits n : Nat) : Machine ε Nat := if n < 2 ^ bits then pure n else trap .overflow

/-- `a - b` in words, which have no negative numbers. -/
def sub (a b : Nat) : Machine ε Nat := if b ≤ a then pure (a - b) else trap .overflow

/-- `n` in 16 bits. -/
def narrow (n : Nat) : Machine ε UInt16 :=
  if n < 65536 then pure (UInt16.ofNat n) else trap .truncation

/-- `a + b`, where it fits in a 64-bit word. -/
def checkedAdd (a b : Nat) : Option Nat := if a + b < 2 ^ 64 then some (a + b) else none

/-- The bytes from `start` up to `stop`, where they are bytes of `b`. -/
def range? (b : Bytes) (start stop : Nat) : Option Bytes :=
  if start ≤ stop ∧ stop ≤ b.length then some ((b.drop start).take (stop - start)) else none

/-- The bytes from `start` up to `stop`, which have to be bytes of `b`. -/
def range (b : Bytes) (start stop : Nat) : Machine ε Bytes :=
  match range? b start stop with
  | some s => pure s
  | none => trap .outOfRange

/-- The scalar that `s` holds. A number is copied, which takes exactly its bytes; of a truth value
only the first byte is looked at. -/
def decode : (type : ScalarType) → Bytes → Machine ε type.Value
  | .bool, s => match s with
    | byte :: _ => pure (byte != 0)
    | [] => trap .outOfRange
  | type, s => if s.length = type.width then pure (type.decode s) else trap .lengthMismatch

/-! ### Reading at a position -/

/-- The `size` bytes at `position`. -/
def sliceAt (b : Bytes) (position size : Nat) : Machine WireError Bytes :=
  match (checkedAdd position size).bind (range? b position) with
  | some s => pure s
  | none => throw (.outOfBounds position size b.length)

/-- The scalar at `position`. -/
def readScalar (type : ScalarType) (b : Bytes) (position : Nat) :
    Machine WireError type.Value := do
  decode type (← sliceAt b position type.width)

/-- The bytes of the vector at `position`. -/
def readVector (b : Bytes) (position : Nat) : Machine WireError Bytes := do
  let count ← readScalar .u32 b position
  sliceAt b (← word 64 (position + 4)) count.toNat

/-- The string at `position`. -/
def readString (b : Bytes) (position : Nat) : Machine WireError String := do
  match utf8? (← readVector b position) with
  | some s => return s
  | none => throw (.invalidUtf8 position)

/-! ### Vtables -/

/-- The length of the object. -/
def objectLength (v : VTable) : Machine ε Nat := do
  let length ← decode .u16 (← range v.bytes 2 4)
  return UInt16.toNat length

/-- The number of slots that have an entry. -/
def slotCount (v : VTable) : Machine ε Nat := do
  return (← sub v.bytes.length 4) / 2

/-- Whether no slot has an entry. -/
def isEmpty (v : VTable) : Machine ε Bool := do
  return (← slotCount v) == 0

/-- The distance of the field in `slot` from the start of the object. -/
def fieldOffset (v : VTable) (slot : UInt16) : Machine ε UInt16 := do
  let start ← word 64 (4 + (← word 64 (2 * slot.toNat)))
  match range? v.bytes start (← word 64 (start + 2)) with
  | some s => decode .u16 s
  | none => return 0

/-- The entries that are not zero among `bytes`, taken in pairs of bytes, with the slots that they
are for. -/
def presentFrom (slot : Nat) : Bytes → Machine ε (List (UInt16 × UInt16))
  | low :: high :: rest => do
    let number ← narrow slot
    let offset ← decode .u16 [low, high]
    let present ← presentFrom (← word 64 (slot + 1)) rest
    return if offset = (0 : UInt16) then present else (number, offset) :: present
  | _ => return []

/-- The slots that are present with the distances of their fields. -/
def presentSlots (v : VTable) : Machine ε (List (UInt16 × UInt16)) := do
  presentFrom 0 (← range v.bytes 4 v.bytes.length)

/-- The distance of the entry for `slot` from the start of a vtable, in 16-bit words. -/
def voffset (slot : UInt16) : Machine ε UInt16 := do
  return UInt16.ofNat (← word 16 (4 + (← word 16 (2 * slot.toNat))))

/-! ### Tables -/

/-- Where the vtable of an object at `position` starts. The difference is taken in signed 64-bit
words, and has to be a position again. -/
def vtableStart? (position : Nat) (reference : Int32) : Option Nat :=
  if (position : Int) < 2 ^ 63 then
    if (position : Int) - reference.toInt < 2 ^ 63 ∧ 0 ≤ (position : Int) - reference.toInt then
      some ((position : Int) - reference.toInt).toNat
    else none
  else none

/-- The vtable of an object. -/
def vtable (t : Table) : Machine WireError VTable := do
  let reference ← readScalar .i32 t.buffer t.position
  match vtableStart? t.position reference with
  | none => throw (.outOfBounds t.position 4 t.buffer.length)
  | some start =>
    let length ← readScalar .u16 t.buffer start
    ofExcept (ensure (4 ≤ length.toNat ∧ length.toNat % 2 = 0) (.badVTable start .length))
    let bytes ← sliceAt t.buffer start length.toNat
    let objectLength ← readScalar .u16 t.buffer (← word 64 (start + 2))
    ofExcept (ensure (4 ≤ objectLength.toNat) (.badVTable start .objectLength))
    let _ ← sliceAt t.buffer t.position objectLength.toNat
    return { bytes := bytes, position := start }

/-- The object at `position`. -/
def ofPosition (buffer : Bytes) (position : Nat) : Machine WireError Table := do
  let _ ← vtable { buffer := buffer, position := position }
  return { buffer := buffer, position := position }

/-- Where the field in `slot` starts, or nothing when the slot is absent. -/
def fieldPosition (t : Table) (slot : UInt16) (size : Nat) : Machine WireError (Option Nat) := do
  let v ← vtable t
  let field := (← fieldOffset v slot).toNat
  if field = 0 then
    return none
  else
    ofExcept (ensure (4 ≤ field) (.badVTable v.position .fieldOutsideObject))
    let stop ← word 64 (field + size)
    ofExcept (ensure (stop ≤ (← objectLength v)) (.badVTable v.position .fieldOutsideObject))
    return some (← word 64 (t.position + field))

/-- The scalar in `slot`, or `default` when the slot is absent. -/
def get (t : Table) (type : ScalarType) (slot : UInt16) (default : type.Value) :
    Machine WireError type.Value := do
  match ← fieldPosition t slot type.width with
  | some position => readScalar type t.buffer position
  | none => return default

/-- Where the reference in `slot` leads, or nothing when the slot is absent. -/
def follow (t : Table) (slot : UInt16) : Machine WireError (Option Nat) := do
  match ← fieldPosition t slot 4 with
  | none => return none
  | some position =>
    let distance ← readScalar .u32 t.buffer position
    match (checkedAdd position distance.toNat).filter (· < t.buffer.length) with
    | some target => return some target
    | none => throw (.outOfBounds position distance.toNat t.buffer.length)

/-- What `read` gives at the target of the reference in `slot`, or nothing when it is absent. -/
def getWith (t : Table) (slot : UInt16) (read : Nat → Machine WireError α) :
    Machine WireError (Option α) := do
  match ← follow t slot with
  | none => return none
  | some target => return some (← read target)

/-- The object that `slot` refers to. -/
def getTable (t : Table) (slot : UInt16) : Machine WireError (Option Table) :=
  getWith t slot (ofPosition t.buffer)

/-- The string that `slot` refers to. -/
def getString (t : Table) (slot : UInt16) : Machine WireError (Option String) :=
  getWith t slot (readString t.buffer)

/-- The bytes of the vector that `slot` refers to. -/
def getBytes (t : Table) (slot : UInt16) : Machine WireError (Option Bytes) :=
  getWith t slot (readVector t.buffer)

/-- The object that the first four bytes of a buffer refer to. -/
def rootTable (buffer : Bytes) : Machine WireError Table := do
  ofExcept (ensure (4 ≤ buffer.length) (.tooShort buffer.length))
  let root ← readScalar .u32 buffer 0
  ofPosition buffer root.toNat

/-- The object that `slot` refers to, viewed as a record. -/
def getRecord (ofTable : Table → Machine WireError α) (t : Table) (slot : UInt16) :
    Machine WireError (Option α) := do
  match ← getTable t slot with
  | none => return none
  | some target => return some (← ofTable target)

/-! ### Computations that do not trap -/

/-- Results and errors that a machine and a plain reader may have of the same read. -/
inductive Alike (huge : Prop) (malformed : ε → Bool) : Except ε α → Except ε α → Prop
  | same (x : Except ε α) : Alike huge malformed x x
  /-- In a huge buffer the bytes may be found malformed for another reason. -/
  | malformed (h : huge) {e e' : ε} (he : malformed e = true) (he' : malformed e' = true) :
    Alike huge malformed (.error e) (.error e')

/-- `x` does not trap, and gives what `y` gives. -/
def Follows (huge : Prop) (malformed : ε → Bool) (x : Machine ε α) (y : Except ε α) : Prop :=
  ∃ z, x = ofExcept z ∧ Alike huge malformed z y

theorem ofExcept_bind (a : α) (f : α → Machine ε β) : (ofExcept (.ok a) >>= f) = f a := rfl

namespace Follows

variable {huge : Prop} {malformed : ε → Bool} {x : Machine ε α} {y : Except ε α}

theorem of_eq (h : x = ofExcept y) : Follows huge malformed x y := ⟨y, h, .same y⟩

/-- Steps in sequence. -/
theorem bind {f : α → Machine ε β} {g : α → Except ε β} (h : Follows huge malformed x y)
    (hf : ∀ a, y = .ok a → Follows huge malformed (f a) (g a)) :
    Follows huge malformed (x >>= f) (y >>= g) := by
  obtain ⟨z, rfl, halike⟩ := h
  cases halike with
  | same =>
    cases y with
    | error e => exact ⟨.error e, rfl, .same _⟩
    | ok a => exact hf a rfl
  | malformed hhuge he he' => exact ⟨.error _, rfl, .malformed hhuge he he'⟩

/-- A result that is turned into another one does not trap. -/
theorem map {f : α → β} (h : Follows huge malformed x y) :
    Follows huge malformed (x >>= fun a => pure (f a)) (y.map f) := by
  obtain ⟨z, rfl, halike⟩ := h
  cases halike with
  | same =>
    cases y with
    | error e => exact ⟨.error e, rfl, .same _⟩
    | ok a => exact ⟨.ok (f a), rfl, .same _⟩
  | malformed hhuge he he' => exact ⟨.error _, rfl, .malformed hhuge he he'⟩

/-- A result that cannot fail to come. -/
theorem of_pure {a : α} (h : x = pure a) (f : α → β) :
    Follows huge malformed (x >>= fun a => pure (f a)) (.ok (f a)) := by
  rw [h, pure_bind]
  exact .of_eq rfl

/-- Where errors are dropped, nothing tells the two apart. -/
theorem toOption (h : Follows huge malformed x y) (f : Option α → β) :
    (outcome x >>= fun z => pure (f z.toOption) : Machine ε' β)
      = ofExcept (.ok (f y.toOption)) := by
  obtain ⟨z, rfl, halike⟩ := h
  cases halike with
  | same => rfl
  | malformed hhuge he he' => rfl

/-- What is read for an envelope does not trap, and keeps its error as one of the envelope. -/
theorem checked {x : Machine WireError α} {y : Except WireError α}
    (h : Follows huge (fun _ => true) x y) :
    Follows huge EnvelopeError.isMalformed (Machine.checked x) (Envelope.checked y) := by
  obtain ⟨z, rfl, halike⟩ := h
  refine ⟨Envelope.checked z, rfl, ?_⟩
  cases halike with
  | same => exact .same _
  | malformed hhuge he he' => exact .malformed hhuge rfl rfl

end Follows

/-! ### Words and bytes that fit -/

section Fits

/-- A number that fits does not trap. -/
private theorem word_eq {bits n : Nat} (h : n < 2 ^ bits) :
    (word bits n : Machine ε Nat) = pure n :=
  if_pos h

private theorem sub_eq {a b : Nat} (h : b ≤ a) : (sub a b : Machine ε Nat) = pure (a - b) :=
  if_pos h

private theorem narrow_eq {n : Nat} (h : n < 65536) :
    (narrow n : Machine ε UInt16) = pure (UInt16.ofNat n) :=
  if_pos h

/-- A range that is there does not trap. -/
private theorem range_eq {b : Bytes} {start stop : Nat} (hstart : start ≤ stop)
    (hstop : stop ≤ b.length) :
    (range b start stop : Machine ε Bytes) = pure ((b.drop start).take (stop - start)) := by
  rw [range, range?, if_pos ⟨hstart, hstop⟩]

/-- A scalar is decoded from as many bytes as it takes. -/
private theorem decode_eq {type : ScalarType} {s : Bytes} (h : s.length = type.width) :
    (decode type s : Machine ε type.Value) = pure (type.decode s) := by
  cases type with
  | bool =>
    obtain ⟨byte, rfl⟩ := List.length_eq_one_iff.mp h
    have hzero : (byte != 0) = (byte.toNat + 256 * 0 != 0) := by
      rw [Bool.eq_iff_iff, bne_iff_ne, bne_iff_ne, Ne, Ne, ← UInt8.toNat_inj]
      rfl
    exact congrArg pure hzero
  | _ => exact if_pos h

end Fits

/-! ### Reads at a position -/

/-- The longest that the bytes of a program can be. -/
def maxLength : Nat := 2 ^ 63

/-- Whether a length comes so close to the largest that signed words do not tell every place. -/
def Huge (size : Nat) : Prop := maxLength < size + 2 ^ 31

section Reads

variable {b : Bytes} {position : Nat} (hb : b.length < maxLength)

include hb

/-- A slice is taken where it is, even where its end is not a word. -/
private theorem sliceAt_eq (position size : Nat) :
    sliceAt b position size = ofExcept (b.read position size) := by
  have hmax : maxLength = 2 ^ 63 := rfl
  rw [sliceAt, Bytes.read]
  by_cases hfits : position + size ≤ b.length
  · have hadd : checkedAdd position size = some (position + size) := if_pos (by omega)
    have hrange : range? b position (position + size)
        = some ((b.drop position).take (position + size - position)) :=
      if_pos ⟨Nat.le_add_right _ _, hfits⟩
    rw [hadd, Option.bind_some, hrange, Nat.add_sub_cancel_left,
      Bytes.slice?_eq_some_iff.mpr ⟨hfits, rfl⟩]
    rfl
  · have hnone : (checkedAdd position size).bind (range? b position) = none := by
      rw [checkedAdd]
      split
      · exact if_neg fun h => hfits h.2
      · rfl
    rw [hnone, Bytes.slice?_eq_none_iff.mpr (Nat.not_le.mp hfits)]
    rfl

/-- A scalar is read alike: as many bytes are copied as there are. -/
theorem readScalar_eq (type : ScalarType) (position : Nat) :
    readScalar type b position = ofExcept (EnvelopeWire.readScalar type b position) := by
  rw [readScalar, EnvelopeWire.readScalar, sliceAt_eq hb]
  cases hread : b.read position type.width with
  | error e => rfl
  | ok s =>
    obtain ⟨hle, rfl⟩ := Bytes.read_eq_ok_iff.mp hread
    refine decode_eq ?_
    rw [List.length_take, List.length_drop]
    omega

/-- A vector is read alike, as the position behind its count is a word. -/
private theorem readVector_eq (position : Nat) :
    readVector b position = ofExcept (EnvelopeWire.readVector b position) := by
  have hmax : maxLength = 2 ^ 63 := rfl
  rw [readVector, EnvelopeWire.readVector, readScalar_eq hb]
  cases hcount : EnvelopeWire.readScalar .u32 b position with
  | error e => rfl
  | ok count =>
    -- The count was read there, so the bytes behind it start inside the buffer or at its end.
    obtain ⟨hle, -⟩ := readScalar_u32_eq_ok_iff.mp hcount
    change word 64 (position + 4) >>= _ = ofExcept (b.read (position + 4) _)
    rw [word_eq (by omega), ← sliceAt_eq hb]
    rfl

private theorem readString_eq (position : Nat) :
    readString b position = ofExcept (EnvelopeWire.readString b position) := by
  rw [readString, EnvelopeWire.readString, readVector_eq hb]
  cases EnvelopeWire.readVector b position with
  | error e => rfl
  | ok bytes =>
    change (match utf8? bytes with | some s => _ | none => _)
      = ofExcept (match utf8? bytes with | some s => _ | none => _)
    cases utf8? bytes <;> rfl

end Reads

/-! ### Reads of a vtable -/

/-- What is known of the bytes of a vtable: they hold its header, and no more than a 16-bit length
tells. -/
structure SoundVTable (v : VTable) : Prop where
  four_le : 4 ≤ v.bytes.length
  length_lt : v.bytes.length < 65536

section VTables

variable {v : VTable}

/-- The length of the object is read from the header, which is there. -/
theorem objectLength_eq (h : SoundVTable v) :
    (objectLength v : Machine ε Nat) = ofExcept (.ok v.objectLength) := by
  have hfour := h.four_le
  have hlength : ((v.bytes.drop 2).take (4 - 2)).length = ScalarType.u16.width := by
    rw [List.length_take, List.length_drop, ScalarType.width]
    omega
  rw [objectLength, range_eq (by omega) hfour, pure_bind, decode_eq hlength]
  rfl

/-- The header is not longer than the vtable, so there is a number of slots. -/
theorem slotCount_eq (h : SoundVTable v) :
    (slotCount v : Machine ε Nat) = ofExcept (.ok v.slotCount) := by
  rw [slotCount, sub_eq h.four_le]
  rfl

theorem isEmpty_eq (h : SoundVTable v) :
    (isEmpty v : Machine ε Bool) = ofExcept (.ok v.isEmpty) := by
  rw [isEmpty, slotCount_eq h]
  rfl

/-- An entry is looked for where its slot says, which is a word for every slot. -/
theorem fieldOffset_eq (v : VTable) (slot : UInt16) :
    (fieldOffset v slot : Machine ε UInt16) = ofExcept (.ok (v.fieldOffset slot)) := by
  have hslot : slot.toNat < 65536 := slot.toNat_lt
  rw [fieldOffset, word_eq (by omega), pure_bind, word_eq (by omega), pure_bind,
    word_eq (by omega), pure_bind, range?, VTable.fieldOffset_eq]
  by_cases hshort : v.bytes.length < 4 + 2 * slot.toNat + 2
  · rw [if_neg (by omega), if_pos hshort]
    rfl
  · rw [if_pos (by omega), if_neg hshort, Nat.add_sub_cancel_left]
    refine decode_eq ?_
    rw [List.length_take, List.length_drop, ScalarType.width]
    omega

/-- The numbers of the slots stay words of 16 bits, as there are not more entries. -/
private theorem presentFrom_eq {slot : Nat} {bytes : Bytes} (h : slot + bytes.length / 2 < 65536) :
    (presentFrom slot bytes : Machine ε _) = ofExcept (.ok (VTable.presentFrom slot bytes)) := by
  fun_induction VTable.presentFrom slot bytes with
  | case1 slot low high rest offset hzero ih =>
    rw [List.length_cons, List.length_cons] at h
    rw [presentFrom, narrow_eq (by omega), pure_bind, decode_eq rfl, pure_bind,
      word_eq (by omega), pure_bind, ih (by omega), ofExcept_bind, if_pos hzero]
    rfl
  | case2 slot low high rest offset hpresent ih =>
    rw [List.length_cons, List.length_cons] at h
    rw [presentFrom, narrow_eq (by omega), pure_bind, decode_eq rfl, pure_bind,
      word_eq (by omega), pure_bind, ih (by omega), ofExcept_bind, if_neg hpresent]
    rfl
  | case3 slot bytes hshort =>
    rw [presentFrom]
    · rfl
    · exact hshort

/-- The present slots are the same. -/
theorem presentSlots_eq (h : SoundVTable v) :
    (presentSlots v : Machine ε _) = ofExcept (.ok v.presentSlots) := by
  have hfour := h.four_le
  have hlength := h.length_lt
  have hrest : (v.bytes.drop 4).take (v.bytes.length - 4) = v.bytes.drop 4 :=
    List.take_of_length_le (Nat.le_of_eq List.length_drop)
  rw [presentSlots, range_eq hfour (Nat.le_refl _), pure_bind, hrest, VTable.presentSlots]
  exact presentFrom_eq (by rw [List.length_drop]; omega)

/-- The distance of an entry fits in 16 bits for every slot that a vtable can list. -/
theorem voffset_eq {slot : UInt16} (h : slot.toNat < 32766) :
    (voffset slot : Machine ε UInt16) = ofExcept (.ok (EnvelopeWire.voffset slot)) := by
  rw [voffset, word_eq (by omega), pure_bind, word_eq (by omega), pure_bind]
  refine congrArg (fun n => ofExcept (.ok n)) ?_
  rw [← UInt16.toNat_inj, UInt16.toNat_ofNat_of_lt' (show _ < 65536 by omega), EnvelopeWire.voffset]
  simp
  omega

end VTables

/-! ### Reads of an object -/

section Tables

variable {size : Nat} {t : Table} (hsize : size < maxLength)

/-- The vtable of an object is sound, and the object lies in the buffer. -/
theorem soundVTable_of_vtable {v : VTable} (h : t.vtable = .ok v) :
    SoundVTable v ∧ t.position + v.objectLength ≤ t.buffer.length := by
  obtain ⟨htable, rfl⟩ := Table.vtable_eq_ok_iff_isTable.mp h
  refine ⟨⟨?_, ?_⟩, ?_⟩
  · rw [htable.length_vtable]
    exact htable.four_le_vtable
  · rw [htable.length_vtable]
    exact t.buffer.word16At_lt _
  · rw [htable.objectLength_vtable]
    exact htable.object_le

/-- The start of a vtable, where signed words tell it. -/
private theorem vtableStart?_eq {position : Nat} {reference : Int32}
    (hposition : position < maxLength) :
    vtableStart? position reference
      = if (position : Int) - reference.toInt < 2 ^ 63 ∧ 0 ≤ (position : Int) - reference.toInt then
          some ((position : Int) - reference.toInt).toNat
        else none := by
  have hmax : maxLength = 2 ^ 63 := rfl
  exact if_pos (by omega)

include hsize

/-- **The vtable of an object.** -/
theorem vtable_follows (h : t.buffer.length ≤ size) :
    Follows (Huge size) (fun _ => true) (vtable t) t.vtable := by
  have hmax : maxLength = 2 ^ 63 := rfl
  have hb : t.buffer.length < maxLength := by omega
  rw [vtable, Table.vtable]
  refine (Follows.of_eq (readScalar_eq hb .i32 t.position)).bind fun reference href => ?_
  obtain ⟨hle, -⟩ := readScalar_i32_eq_ok_iff.mp href
  have hlow : -2 ^ 31 ≤ Int32.toInt reference := Int32.le_toInt reference
  rw [vtableStart?_eq (by omega)]
  change Follows _ _ _ (ensure (0 ≤ (t.position : Int) - Int32.toInt reference) _ >>= _)
  by_cases hneg : 0 ≤ (t.position : Int) - Int32.toInt reference
  · rw [(ensure_eq_ok_iff (u := ())).mpr hneg]
    by_cases hword : (t.position : Int) - Int32.toInt reference < 2 ^ 63
    · rw [if_pos ⟨hword, hneg⟩]
      refine (Follows.of_eq (readScalar_eq hb .u16 _)).bind fun length hlength => ?_
      obtain ⟨hstart, -⟩ := readScalar_u16_eq_ok_iff.mp hlength
      refine (Follows.of_eq rfl).bind fun _ _ => ?_
      refine (Follows.of_eq (sliceAt_eq hb _ _)).bind fun bytes _ => ?_
      rw [word_eq (by omega), pure_bind]
      refine (Follows.of_eq (readScalar_eq hb .u16 _)).bind fun objectLength _ => ?_
      refine (Follows.of_eq rfl).bind fun _ _ => ?_
      exact (Follows.of_eq (sliceAt_eq hb _ _)).bind fun _ _ => .of_eq rfl
    · -- The start lies so far out that the plain reader finds no byte there.
      have hout : EnvelopeWire.readScalar .u16 t.buffer
            ((t.position : Int) - Int32.toInt reference).toNat
          = .error (.outOfBounds ((t.position : Int) - Int32.toInt reference).toNat 2
              t.buffer.length) := by
        rw [EnvelopeWire.readScalar, map_eq_error_iff, Bytes.read_eq_error_iff]
        exact ⟨by omega, rfl⟩
      have hhuge : Huge size := by
        rw [Huge]
        omega
      rw [if_neg fun hboth => hword hboth.1]
      change Follows _ _ _ (EnvelopeWire.readScalar .u16 t.buffer _ >>= _)
      rw [hout]
      exact ⟨_, rfl, .malformed hhuge rfl rfl⟩
  · rw [if_neg fun hboth => hneg hboth.2, ensure_eq_error_iff.mpr ⟨hneg, rfl⟩]
    exact .of_eq rfl

theorem ofPosition_follows {b : Bytes} (h : b.length ≤ size) (position : Nat) :
    Follows (Huge size) (fun _ => true) (ofPosition b position) (Table.ofPosition b position) :=
  (vtable_follows hsize (t := { buffer := b, position := position }) h).map

/-- A field starts at a position of the buffer. -/
private theorem fieldPosition_follows (h : t.buffer.length ≤ size) (slot : UInt16) {width : Nat}
    (hwidth : width ≤ 8) :
    Follows (Huge size) (fun _ => true) (fieldPosition t slot width)
      (t.locateField slot width) := by
  have hmax : maxLength = 2 ^ 63 := rfl
  rw [fieldPosition, Table.locateField]
  refine (vtable_follows hsize h).bind fun v hv => ?_
  obtain ⟨hsound, hobject⟩ := soundVTable_of_vtable hv
  have hfield : (v.fieldOffset slot).toNat < 65536 := (v.fieldOffset slot).toNat_lt
  rw [fieldOffset_eq, ofExcept_bind]
  change Follows _ _ (if (v.fieldOffset slot).toNat = 0 then _ else _)
    (if (v.fieldOffset slot).toNat = 0 then _ else _)
  by_cases hzero : (v.fieldOffset slot).toNat = 0
  · rw [if_pos hzero, if_pos hzero]
    exact .of_eq rfl
  · rw [if_neg hzero, if_neg hzero]
    rw [objectLength_eq hsound]
    by_cases hfour : 4 ≤ (v.fieldOffset slot).toNat
    · rw [(ensure_eq_ok_iff (u := ())).mpr hfour, ofExcept_bind, word_eq (by omega), pure_bind,
        ofExcept_bind]
      by_cases hle : (v.fieldOffset slot).toNat + width ≤ v.objectLength
      · rw [(ensure_eq_ok_iff (u := ())).mpr hle, (ensure_eq_ok_iff (u := ())).mpr ⟨hfour, hle⟩,
          ofExcept_bind, word_eq (by omega)]
        exact .of_eq rfl
      · rw [ensure_eq_error_iff.mpr ⟨hle, rfl⟩,
          ensure_eq_error_iff.mpr ⟨fun hboth => hle hboth.2, rfl⟩]
        exact .of_eq rfl
    · rw [ensure_eq_error_iff.mpr ⟨hfour, rfl⟩,
        ensure_eq_error_iff.mpr ⟨fun hboth => hfour hboth.1, rfl⟩]
      exact .of_eq rfl

/-- **A scalar slot.** -/
theorem get_follows (h : t.buffer.length ≤ size) (type : ScalarType) (slot : UInt16)
    (default : type.Value) :
    Follows (Huge size) (fun _ => true) (get t type slot default) (t.get type slot default) := by
  have hb : t.buffer.length < maxLength := Nat.lt_of_le_of_lt h hsize
  refine (fieldPosition_follows hsize h slot type.width_le).bind fun found _ => ?_
  cases found with
  | none => exact .of_eq rfl
  | some position => exact .of_eq (readScalar_eq hb type position)

/-- A reference is followed alike: a target in the buffer is a word. -/
private theorem follow_follows (h : t.buffer.length ≤ size) (slot : UInt16) :
    Follows (Huge size) (fun _ => true) (follow t slot) (t.follow slot) := by
  have hmax : maxLength = 2 ^ 63 := rfl
  have hb : t.buffer.length < maxLength := Nat.lt_of_le_of_lt h hsize
  refine (fieldPosition_follows hsize h slot (by decide)).bind fun found _ => ?_
  cases found with
  | none => exact .of_eq rfl
  | some position =>
    refine (Follows.of_eq (readScalar_eq hb .u32 position)).bind fun distance hdistance => ?_
    obtain ⟨hle, -⟩ := readScalar_u32_eq_ok_iff.mp hdistance
    have hword : UInt32.toNat distance < 2 ^ 32 := UInt32.toNat_lt distance
    have hadd : checkedAdd position (UInt32.toNat distance)
        = some (position + UInt32.toNat distance) := if_pos (by omega)
    rw [hadd]
    by_cases htarget : position + UInt32.toNat distance < t.buffer.length
    · rw [Option.filter_some_pos (by simpa using htarget), (ensure_eq_ok_iff (u := ())).mpr htarget]
      exact .of_eq rfl
    · rw [Option.filter_some_neg (by simpa using htarget), ensure_eq_error_iff.mpr ⟨htarget, rfl⟩]
      exact .of_eq rfl

/-- **A reference slot**, whatever is read at its target. -/
theorem getWith_follows (h : t.buffer.length ≤ size) (slot : UInt16) {α : Type}
    {read : Nat → Machine WireError α} {plain : Nat → Except WireError α}
    (hread : ∀ target, Follows (Huge size) (fun _ => true) (read target) (plain target)) :
    Follows (Huge size) (fun _ => true) (getWith t slot read) (t.getWith slot plain) := by
  refine (follow_follows hsize h slot).bind fun found _ => ?_
  cases found with
  | none => exact .of_eq rfl
  | some target => exact (hread target).bind fun _ _ => .of_eq rfl

theorem getTable_follows (h : t.buffer.length ≤ size) (slot : UInt16) :
    Follows (Huge size) (fun _ => true) (getTable t slot) (t.getTable slot) :=
  getWith_follows hsize h slot fun target => ofPosition_follows hsize h target

theorem getString_follows (h : t.buffer.length ≤ size) (slot : UInt16) :
    Follows (Huge size) (fun _ => true) (getString t slot) (t.getString slot) :=
  getWith_follows hsize h slot fun target =>
    .of_eq (readString_eq (Nat.lt_of_le_of_lt h hsize) target)

theorem getBytes_follows (h : t.buffer.length ≤ size) (slot : UInt16) :
    Follows (Huge size) (fun _ => true) (getBytes t slot) (t.getBytes slot) :=
  getWith_follows hsize h slot fun target =>
    .of_eq (readVector_eq (Nat.lt_of_le_of_lt h hsize) target)

theorem rootTable_follows {b : Bytes} (h : b.length ≤ size) :
    Follows (Huge size) (fun _ => true) (rootTable b) (EnvelopeWire.rootTable b) := by
  refine (Follows.of_eq rfl).bind fun _ _ => ?_
  refine (Follows.of_eq (readScalar_eq (Nat.lt_of_le_of_lt h hsize) .u32 0)).bind fun root _ => ?_
  exact ofPosition_follows hsize h _

end Tables

end Machine

end EnvelopeWire
