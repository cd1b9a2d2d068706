import EnvelopeWire.Report.Basic
import EnvelopeWire.Text.Quoted

/-!
# Reports as text

A report as lines of text, one line per fact. Text from the buffer stands between quotes, so no
content of an envelope can look like another line.
-/

namespace EnvelopeWire

/-- `s` followed by blanks, up to `width` characters. -/
def padRight (width : Nat) (s : String) : String :=
  s ++ String.ofList (List.replicate (width - s.length) ' ')

/-- `s` after blanks, up to `width` characters. -/
def padLeft (width : Nat) (s : String) : String :=
  String.ofList (List.replicate (width - s.length) ' ') ++ s

/-- The line for a slot. -/
def SlotReport.line (r : SlotReport) : String :=
  "  slot " ++ toString r.slot.toNat ++ " " ++ padRight 12 r.name ++ " voffset "
    ++ padLeft 2 (toString r.voffset.toNat) ++ " -> +" ++ toString r.fieldOffset.toNat

/-- The word for the kind of a destination: its name, or its byte when that is unknown. -/
def DestinationReport.kindText (r : DestinationReport) : String :=
  match r.kind with
  | some kind => kind.name
  | none => "0x" ++ Hex.byte r.kindByte

/-- The line for the destination. -/
def destinationLine : Option DestinationReport → String
  | none => "destination: none"
  | some r => "destination: " ++ r.kindText ++ " " ++ Text.quoted (r.target.getD "")

/-- The line for the content. -/
def ContentReport.line : ContentReport → String
  | .none => "content: none"
  | .noMessage => "content: no_message"
  | .success => "content: success"
  | .error code category reason =>
    "content: error code=" ++ toString code.toNat ++ " category="
      ++ Text.quoted (category.getD "") ++ " reason=" ++ Text.quoted (reason.getD "")
  | .other tag position =>
    "content: tag 0x" ++ Hex.byte tag ++ " table at " ++ toString position
  | .invalid e => "content: invalid (" ++ e.message ++ ")"

/-- The lines of a report. -/
def Report.lines (r : Report) : List String :=
  [ "buffer: " ++ toString r.bufferLength ++ " bytes, root at " ++ toString r.rootPosition,
    "vtable @ " ++ toString r.vtable.position ++ ": " ++ toString r.vtable.length
      ++ " bytes, object " ++ toString r.vtable.objectLength ++ " bytes" ]
  ++ r.vtable.slots.map SlotReport.line
  ++ [ destinationLine r.destination,
    "content_type: " ++ toString r.contentType.toNat,
    r.content.line,
    "id: " ++ toString r.id.toInt ]

end EnvelopeWire
