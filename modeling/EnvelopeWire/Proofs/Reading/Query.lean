import EnvelopeWire.Report.Basic

/-!
# Reads as data

Everything a reader can do with a buffer is a `Query`: a scalar read at a position; a walk from the
root, or from the object at any position, along references to objects, with a question to the
object it gets to; or a question to the envelope at the root. `Query.run` answers it on a buffer.

An `Answer` holds no buffer. An object is answered by its position, and a record by its position
and by all that its accessors say, so two answers are equal exactly when a reader cannot tell what
they stand for apart.
-/

namespace EnvelopeWire

/-- What a read gives. -/
inductive Answer
  | absent
  | table (position : Nat)
  | vtable (v : VTable)
  | scalar (type : ScalarType) (value : type.Value)
  | string (text : String)
  | bytes (bytes : Bytes)
  | destination (position : Nat) (fields : DestinationReport)
  | errorContent (position : Nat) (code : UInt16) (category reason : Option String)
  | envelope (position : Nat) (destination : Option Answer) (contentType : UInt8) (id : Int32)
  /-- A content, with the position of the table that it stands for if there is one. -/
  | content (content : ContentReport) (position : Option Nat)

namespace Answer

def ofTable (t : Table) : Answer := table t.position

def ofDestination (d : Destination) : Answer := destination d.table.position (.ofDestination d)

def ofErrorContent (e : ErrorContent) : Answer :=
  errorContent e.table.position e.code e.category e.reason

def ofEnvelope (e : Envelope) : Answer :=
  envelope e.table.position (e.destination.map ofDestination) e.contentType e.id

/-- The position of the table of a content, where the content keeps one. -/
def contentPosition : Content → Option Nat
  | .error e => some e.table.position
  | .other _ t => some t.position
  | _ => none

def ofContent (c : Content) : Answer := content (.ofContent c) (contentPosition c)

/-- The answer of a read that may find its slot absent. -/
def ofOption {α : Type} (f : α → Answer) : Option α → Answer
  | some a => f a
  | none => absent

end Answer

/-! ### Questions -/

/-- The types of record that an object can be viewed as. -/
inductive RecordType
  | table
  | destination
  | errorContent
  | envelope
deriving DecidableEq, Repr

/-- What a read that works for every type of record gives for this type. -/
def RecordType.ask (read : (ρ : Type) → [Record ρ] → Except WireError (Option ρ)) :
    RecordType → Except WireError Answer
  | table => (read Table).map (Answer.ofOption .ofTable)
  | destination => (read Destination).map (Answer.ofOption .ofDestination)
  | errorContent => (read ErrorContent).map (Answer.ofOption .ofErrorContent)
  | envelope => (read Envelope).map (Answer.ofOption .ofEnvelope)

/-- What can be asked of an object. -/
inductive Question
  | position
  | vtable
  | scalar (type : ScalarType) (slot : UInt16) (default : type.Value)
  | string (slot : UInt16)
  | bytes (slot : UInt16)
  | record (type : RecordType) (slot : UInt16)

/-- The answer of an object. -/
def Question.ask (t : Table) : Question → Except WireError Answer
  | position => .ok (.ofTable t)
  | vtable => t.vtable.map .vtable
  | scalar type slot default => (t.get type slot default).map (.scalar type)
  | string slot => (t.getString slot).map (Answer.ofOption .string)
  | bytes slot => (t.getBytes slot).map (Answer.ofOption .bytes)
  | record type slot => type.ask fun ρ => t.getRecord ρ slot

/-- What can be asked of an envelope. -/
inductive EnvelopeQuestion
  | fields
  | content
  | contentAs (type : RecordType)

/-- The answer of an envelope. -/
def EnvelopeQuestion.ask (e : Envelope) : EnvelopeQuestion → Except EnvelopeError Answer
  | fields => .ok (.ofEnvelope e)
  | content => e.content.map .ofContent
  | contentAs type => Envelope.checked (type.ask fun ρ => e.contentAs ρ)

/-! ### Queries -/

/-- Where a walk starts. -/
inductive Origin
  | root
  | object (position : Nat)
deriving DecidableEq, Repr

/-- The object that a walk starts from. -/
def Origin.table (b : Bytes) : Origin → Except WireError Table
  | root => rootTable b
  | object position => Table.ofPosition b position

/-- The object at the end of a walk along the references in the slots of `path`, or nothing when
one of them is absent. -/
def Table.walk : List UInt16 → Table → Except WireError (Option Table)
  | [], t => .ok (some t)
  | slot :: path, t => do
    match ← t.getTable slot with
    | none => return none
    | some t => walk path t

/-- A read of a buffer. -/
inductive Query
  | scalar (type : ScalarType) (position : Nat)
  | object (origin : Origin) (path : List UInt16) (question : Question)
  | envelope (question : EnvelopeQuestion)

/-- What an object read gives. -/
def Query.runObject (b : Bytes) (origin : Origin) (path : List UInt16) (question : Question) :
    Except WireError Answer := do
  let start ← origin.table b
  match ← start.walk path with
  | none => return .absent
  | some t => question.ask t

/-- What a read gives. -/
def Query.run (b : Bytes) : Query → Except EnvelopeError Answer
  | scalar type position => Envelope.checked ((readScalar type b position).map (.scalar type))
  | object origin path question => Envelope.checked (runObject b origin path question)
  | envelope question => do
    let e ← Envelope.checked (Envelope.ofBuffer b)
    question.ask e

end EnvelopeWire
