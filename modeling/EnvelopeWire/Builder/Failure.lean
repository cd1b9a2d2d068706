import EnvelopeWire.Ensure

/-!
# Why a builder refuses a call

A builder is driven by calls that have to come in a sensible order with sensible arguments. A
call that breaks a rule is a `Misuse`; `Misuse.message` words it. A `Failure` is a misuse, a
buffer that would outgrow its 31-bit offsets, or an index or difference outside its range.

`difference` and `word16` are the two places where a computed number has to fit: they fail with
`Failure.outOfRange` rather than wrap.
-/

namespace EnvelopeWire

/-- The most bytes a buffer may hold: signed 32-bit references have to reach across it. -/
def maxBufferSize : Nat := 0x7fffffff

/-- The most slots an object may have: its vtable length still fits in 16 bits. -/
def maxFields : Nat := 32765

/-- The calls that have rules. -/
inductive Operation
  | startObject | pushSlot | pushSlotOffset | endObject | createString | createByteVector
  | finish | finishedData | takeFinishedData
deriving DecidableEq, Repr

/-- The name under which a message speaks of a call. -/
def Operation.name : Operation → String
  | startObject => "start_object"
  | pushSlot => "push_slot"
  | pushSlotOffset => "push_slot_offset"
  | endObject => "end_object"
  | createString => "create_string"
  | createByteVector => "create_byte_vector"
  | finish => "finish"
  | finishedData => "finished_data"
  | takeFinishedData => "into_finished_data"

/-- A rule that a call breaks. -/
inductive Misuse
  /-- An object is started while another one is open. -/
  | nestedObject
  /-- The call needs that no object is open. -/
  | objectOpen (op : Operation)
  /-- The call needs an open object. -/
  | noOpenObject (op : Operation)
  /-- The call writes to a buffer that is already finished. -/
  | alreadyFinished (op : Operation)
  /-- The call wants the data of a buffer that is not finished. -/
  | notFinished (op : Operation)
  /-- An object is started with more slots than a vtable can have. -/
  | tooManyFields (fields : Nat)
  /-- The slot is not one of the slots of the open object. -/
  | slotOutOfRange (op : Operation) (slot fields : Nat)
  /-- The slot of the open object is written already. -/
  | slotWrittenTwice (op : Operation) (slot : Nat)
  /-- The object is longer than a vtable can say. -/
  | objectTooLarge (length : Nat)
  /-- The offset does not lie in the bytes written so far. -/
  | danglingOffset (value : Nat)
deriving DecidableEq, Repr

/-- The wording of a misuse. -/
def Misuse.message : Misuse → String
  | nestedObject => "start_object called while another object is open"
  | objectOpen op =>
    let name := op.name
    s!"{name} called while an object is open"
  | noOpenObject op =>
    let name := op.name
    s!"{name} called without an open object"
  | alreadyFinished op =>
    let name := op.name
    s!"{name} called on a finished buffer"
  | notFinished op =>
    let name := op.name
    s!"{name} called before finish"
  | tooManyFields fields => s!"start_object: {fields} fields exceeds {maxFields}"
  | slotOutOfRange op slot fields =>
    let name := op.name
    s!"{name}: slot {slot} out of range for an object with {fields} fields"
  | slotWrittenTwice op slot =>
    let name := op.name
    s!"{name}: slot {slot} written twice"
  | objectTooLarge length => s!"object inline size {length} exceeds 65535 bytes"
  | danglingOffset value => s!"offset {value} does not refer to data in this buffer"

/-- Why a call does not complete. -/
inductive Failure
  /-- The call breaks a rule. -/
  | misuse (cause : Misuse)
  /-- The buffer would have to grow beyond `maxBufferSize`. -/
  | bufferLimit
  /-- The vector alone reaches `maxBufferSize`. -/
  | vectorLimit (length : Nat)
  /-- An index, a difference or a 16-bit number falls outside its range. -/
  | outOfRange
deriving DecidableEq, Repr

/-- The wording of a failure. -/
def Failure.message : Failure → String
  | misuse cause => cause.message
  | bufferLimit => s!"buffer would exceed {maxBufferSize} bytes"
  | vectorLimit length => s!"vector of {length} bytes exceeds the buffer limit"
  | outOfRange => "index out of range"

/-- `a - b`, where `b` must not exceed `a`. -/
def difference (a b : Nat) : Except Failure Nat :=
  if b ≤ a then .ok (a - b) else .error .outOfRange

/-- `n` as a 16-bit word, which has to hold it. -/
def word16 (n : Nat) : Except Failure UInt16 :=
  if n < 65536 then .ok (UInt16.ofNat n) else .error .outOfRange

@[simp]
theorem difference_eq_ok_iff {a b d : Nat} : difference a b = .ok d ↔ b ≤ a ∧ a - b = d := by
  by_cases h : b ≤ a <;> simp [difference, h]

@[simp]
theorem word16_eq_ok_iff {n : Nat} {w : UInt16} :
    word16 n = .ok w ↔ n < 65536 ∧ UInt16.ofNat n = w := by
  by_cases h : n < 65536 <;> simp [word16, h]

end EnvelopeWire
