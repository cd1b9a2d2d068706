import EnvelopeWire.Report.Basic
import EnvelopeWire.Text.Json

/-!
# Reports as JSON

A report as a JSON object. A string that is absent is null, which is not the empty string.
-/

namespace EnvelopeWire

/-- A natural number as JSON. -/
def Json.ofNat (n : Nat) : Json := .number n

/-- A slot as an object. -/
def SlotReport.toJson (r : SlotReport) : Json :=
  .object [("slot", .ofNat r.slot.toNat), ("name", .string r.name),
    ("voffset", .ofNat r.voffset.toNat), ("field_offset", .ofNat r.fieldOffset.toNat)]

/-- A vtable as an object. -/
def VTableReport.toJson (r : VTableReport) : Json :=
  .object [("position", .ofNat r.position), ("len", .ofNat r.length),
    ("object_len", .ofNat r.objectLength), ("slots", .array (r.slots.map SlotReport.toJson))]

/-- A destination as an object. -/
def DestinationReport.toJson (r : DestinationReport) : Json :=
  .object [("kind", .ofOption (fun kind => .string (DestinationKind.name kind)) r.kind),
    ("kind_raw", .ofNat r.kindByte.toNat), ("target", .ofOption .string r.target)]

/-- A content as an object that names its kind. -/
def ContentReport.toJson : ContentReport → Json
  | .none => .object [("kind", .string "none")]
  | .noMessage => .object [("kind", .string "no_message")]
  | .success => .object [("kind", .string "success")]
  | .error code category reason =>
    .object [("kind", .string "error"), ("code", .ofNat code.toNat),
      ("category", .ofOption .string category), ("reason", .ofOption .string reason)]
  | .other tag position =>
    .object [("kind", .string "other"), ("tag", .ofNat tag.toNat), ("position", .ofNat position)]
  | .invalid e => .object [("kind", .string "invalid"), ("error", .string e.message)]

/-- A report as an object. -/
def Report.toJson (r : Report) : Json :=
  .object [("buffer_len", .ofNat r.bufferLength), ("root_position", .ofNat r.rootPosition),
    ("vtable", r.vtable.toJson),
    ("destination", .ofOption DestinationReport.toJson r.destination),
    ("content_type", .ofNat r.contentType.toNat), ("content", r.content.toJson),
    ("id", .number r.id.toInt)]

end EnvelopeWire
