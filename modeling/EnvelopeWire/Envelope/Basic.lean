import EnvelopeWire.Envelope.Content
import EnvelopeWire.Envelope.Destination

/-!
# Envelopes

An envelope is the table at the root of a buffer, with four slots, all optional:

| slot | field        | type                  | default |
|------|--------------|-----------------------|---------|
| 0    | destination  | reference to a record | absent  |
| 1    | content type | byte                  | 0       |
| 2    | content      | reference to a table  | absent  |
| 3    | id           | 32-bit signed integer | 0       |

`Envelope.ofBuffer` checks all four slots and the destination, after which the accessors cannot
fail. `Envelope.content` interprets tag and content together; the two are independent slots, so
a buffer may set one without the other.
-/

namespace EnvelopeWire

/-- A table viewed as an envelope. -/
structure Envelope where
  table : Table
deriving DecidableEq, Repr

instance : Record Envelope where
  ofTable table := do
    let _ ← table.getRecord Destination 0
    let _ ← table.get .u8 1 0
    let _ ← table.getTable 2
    let _ ← table.get .i32 3 0
    return { table := table }

namespace Envelope

/-- The envelope at the root of a buffer. -/
def ofBuffer (buffer : Bytes) : Except WireError Envelope := do
  Record.ofTable (← rootTable buffer)

/-- Where the envelope goes. -/
def destination (e : Envelope) : Option Destination :=
  (e.table.getRecord Destination 0).toOption.join

/-- The tag of the content. -/
def contentType (e : Envelope) : UInt8 := (e.table.get .u8 1 0).toOption.getD 0

/-- The number that ties a reply to its request. -/
def id (e : Envelope) : Int32 := (e.table.get .i32 3 0).toOption.getD 0

/-- The content viewed as a record, whatever its tag says. -/
def contentAs (ρ : Type) [Record ρ] (e : Envelope) : Except WireError (Option ρ) :=
  e.table.getRecord ρ 2

/-- A computation that may find malformed bytes, as one that may find any fault. -/
def checked {α : Type} (x : Except WireError α) : Except EnvelopeError α :=
  x.mapError .wire

/-- The content as its tag says. A tag without content and a content without tag are errors. -/
def content (e : Envelope) : Except EnvelopeError Content := do
  match ← checked (e.contentAs Table) with
  | none =>
    if e.contentType = 0 then
      return .none
    else
      throw (.missingContent e.contentType)
  | some table =>
    match ContentType.ofByte e.contentType with
    | .ok .none => throw .untaggedContent
    | .ok .noMessage => return .noMessage
    | .ok .success => return .success
    | .ok .error => return .error (← checked (Record.ofTable table))
    | .error _ => return .other e.contentType table

/-- Without a table only the tag for no content will do. -/
theorem content_eq_of_none {e : Envelope} (htable : e.contentAs Table = .ok none) :
    e.content = if e.contentType = 0 then .ok .none
      else .error (.missingContent e.contentType) := by
  rw [content, htable]
  rfl

/-- The content of an envelope with a table is what its tag says. -/
theorem content_eq {e : Envelope} {table : Table} (htable : e.contentAs Table = .ok (some table)) :
    e.content = match ContentType.ofByte e.contentType with
      | .ok .none => .error .untaggedContent
      | .ok .noMessage => .ok .noMessage
      | .ok .success => .ok .success
      | .ok .error => (checked (Record.ofTable table)).map .error
      | .error _ => .ok (.other e.contentType table) := by
  rw [content, htable]
  cases ContentType.ofByte e.contentType with
  | error _ => rfl
  | ok type =>
    cases type with
    | error =>
      change (checked (Record.ofTable table) >>= fun error => pure (Content.error error)) = _
      cases checked (Record.ofTable table : Except WireError ErrorContent) <;> rfl
    | none => rfl
    | noMessage => rfl
    | success => rfl

end Envelope

/-! ### Writing envelopes -/

/-- One slot of an envelope to write. -/
inductive EnvelopeField
  | destination (target : Offset)
  | contentType (tag : UInt8)
  | content (target : Offset)
  | id (value : Int32)
deriving DecidableEq, Repr

/-- Writes one slot of the open envelope. -/
def EnvelopeField.push : EnvelopeField → Build Unit
  | destination target => Build.pushSlotOffset 0 target
  | contentType tag => Build.pushSlot .u8 1 tag 0
  | content target => Build.pushSlotOffset 2 target
  | id value => Build.pushSlot .i32 3 value 0

namespace Envelope

/-- Writes an envelope slot by slot, in the order of `fields`. Nothing ties the tag to the
content here. -/
def createFields (fields : List EnvelopeField) : Build Offset := do
  Build.startObject 4
  fields.forM EnvelopeField.push
  Build.endObject

/-- The slots of an envelope, the widest first so that no padding falls between them. -/
def fieldsOf (destination : Option Offset) (content : Option ContentRef) (id : Int32) :
    List EnvelopeField :=
  .id id :: (content.map fun c => .content c.offset).toList
    ++ (destination.map .destination).toList
    ++ (content.map fun c => .contentType c.tag).toList

/-- Writes an envelope whose tag and content belong together. -/
def create (destination : Option Offset) (content : Option ContentRef) (id : Int32) :
    Build Offset :=
  createFields (fieldsOf destination content id)

end Envelope

end EnvelopeWire
