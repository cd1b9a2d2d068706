import EnvelopeWire.Envelope.Basic

/-!
# Reports

A report says all that can be said about the envelope in a buffer: where its table lies, which
slots its vtable has, and what the fields hold. A tag that does not go with its content is
reported; malformed bytes are an error.
-/

namespace EnvelopeWire

/-- A slot that is present in the vtable of an envelope. -/
structure SlotReport where
  slot : UInt16
  name : String
  /-- Where the entry of the slot is, counted from the start of the vtable. -/
  voffset : UInt16
  /-- Where the field is, counted from the start of the object. -/
  fieldOffset : UInt16
deriving DecidableEq, Repr

/-- The vtable of an envelope. -/
structure VTableReport where
  position : Nat
  length : Nat
  objectLength : Nat
  slots : List SlotReport
deriving DecidableEq, Repr

/-- The destination of an envelope. -/
structure DestinationReport where
  /-- The kind, unless its byte is unknown. -/
  kind : Option DestinationKind
  kindByte : UInt8
  target : Option String
deriving DecidableEq, Repr

/-- The content of an envelope. -/
inductive ContentReport
  | none
  | noMessage
  | success
  | error (code : UInt16) (category reason : Option String)
  /-- A table under a tag without a meaning of its own. -/
  | other (tag : UInt8) (position : Nat)
  /-- The tag does not go with the content. -/
  | invalid (error : EnvelopeError)
deriving DecidableEq, Repr

/-- What there is to say about an envelope. -/
structure Report where
  bufferLength : Nat
  rootPosition : Nat
  vtable : VTableReport
  destination : Option DestinationReport
  contentType : UInt8
  content : ContentReport
  id : Int32
deriving DecidableEq, Repr

/-- The name of the field in a slot of an envelope. -/
def slotName (slot : UInt16) : String :=
  match slot.toNat with
  | 0 => "destination"
  | 1 => "content_type"
  | 2 => "content"
  | 3 => "id"
  | _ => "unknown"

/-- A slot of the vtable with the offset of its field. -/
def SlotReport.ofEntry (entry : UInt16 × UInt16) : SlotReport where
  slot := entry.1
  name := slotName entry.1
  voffset := EnvelopeWire.voffset entry.1
  fieldOffset := entry.2

/-- What is said about a vtable: its lengths and the slots that are present. -/
def VTableReport.ofVTable (v : VTable) : VTableReport where
  position := v.position
  length := v.length
  objectLength := v.objectLength
  slots := v.presentSlots.map .ofEntry

/-- What is said about a destination. -/
def DestinationReport.ofDestination (d : Destination) : DestinationReport where
  kind := d.kind
  kindByte := d.kindByte
  target := d.target

/-- What is said about a content whose tag goes with it. -/
def ContentReport.ofContent : Content → ContentReport
  | .none => .none
  | .noMessage => .noMessage
  | .success => .success
  | .error e => .error e.code e.category e.reason
  | .other tag table => .other tag table.position

/-- What is said about the content when reading it gives `content`: malformed bytes stay an
error, any other fault is reported. -/
def ContentReport.ofResult : Except EnvelopeError Content → Except EnvelopeError ContentReport
  | .ok content => .ok (ofContent content)
  | .error e => if e.isMalformed then .error e else .ok (.invalid e)

/-- The report on the envelope at the root of a buffer. -/
def Report.ofBuffer (buffer : Bytes) : Except EnvelopeError Report := do
  let e ← Envelope.checked (Envelope.ofBuffer buffer)
  let v ← Envelope.checked e.table.vtable
  let content ← ContentReport.ofResult e.content
  return {
    bufferLength := buffer.length
    rootPosition := e.table.position
    vtable := .ofVTable v
    destination := e.destination.map .ofDestination
    contentType := e.contentType
    content := content
    id := e.id }

end EnvelopeWire
