import EnvelopeWire.Description.Basic
import EnvelopeWire.Toml.Document
import EnvelopeWire.Toml.Schema

/-!
# Descriptions in TOML

A description of an envelope as a TOML document, with `id`, `destination` and `content`, all
optional:

    id = 42

    [destination]
    kind = "topic"
    target = "/trains"

    [content]
    kind = "error"
    code = 404
    reason = "no such station"

Keys without a meaning are refused, except beside a content kind that has no fields.
-/

namespace EnvelopeWire

open Toml

/-- A kind of destination, by name. -/
def DestinationKind.ofToml : Value → Except Toml.Error DestinationKind :=
  Value.named [("module", .module), ("topic", .topic)]

/-- A destination. In a table both fields may be left out, in an array none. -/
def DestinationSpec.ofToml (v : Value) : Except Toml.Error DestinationSpec := do
  let entries ← v.fields ["kind", "target"]
  let kind ← entries.withDefault "kind" DestinationKind.module DestinationKind.ofToml
  match v with
  | .array _ => return { kind := kind, target := some (← entries.required "target" Value.text) }
  | _ => return { kind := kind, target := ← entries.optional "target" Value.text }

namespace ContentSpec

/-- The code of an error. -/
def codeOfToml (v : Value) : Except Toml.Error UInt16 :=
  return UInt16.ofNat (← v.integerIn 0 65535).toNat

/-- The tag of a raw content. -/
def tagOfToml (v : Value) : Except Toml.Error UInt8 :=
  return UInt8.ofNat (← v.integerIn 0 255).toNat

/-- A content of the kind `kind` with its fields in a table. The kinds without fields ignore what
stands beside them. -/
def ofEntries (entries : Entries) : (kind : String) → Except Toml.Error ContentSpec
  | "no_message" => .ok .noMessage
  | "success" => .ok .success
  | "error" => do
    let entries ← knownEntries ["code", "category", "reason"] entries
    return .error (← entries.withDefault "code" 0 codeOfToml)
      (← entries.optional "category" Value.text) (← entries.optional "reason" Value.text)
  | "raw" => do
    let entries ← knownEntries ["tag"] entries
    return .raw (← entries.required "tag" tagOfToml)
  | kind => .error (.unknownName kind)

/-- A content of the kind `kind` with all its fields in an array. -/
def ofItems (items : List Value) : (kind : String) → Except Toml.Error ContentSpec
  | "no_message" => if items.isEmpty then .ok .noMessage else .error .wrongLength
  | "success" => if items.isEmpty then .ok .success else .error .wrongLength
  | "error" =>
    match items with
    | [code, category, reason] => do
      return .error (← codeOfToml code) (some (← category.text)) (some (← reason.text))
    | _ => .error .wrongLength
  | "raw" =>
    match items with
    | [tag] => return .raw (← tagOfToml tag)
    | _ => .error .wrongLength
  | kind => .error (.unknownName kind)

/-- A content: a table with the key `kind`, or an array that starts with the kind. -/
def ofToml : Value → Except Toml.Error ContentSpec
  | .table entries => do
    let kind ← Entries.required entries "kind" Value.text
    ofEntries (entries.filter fun entry => entry.1 != "kind") kind
  | .array (kind :: items) => do ofItems items (← kind.text)
  | .array [] => .error .wrongLength
  | _ => .error (.wrongType "a table")

end ContentSpec

namespace Description

/-- A description in a table. -/
def ofEntries (entries : Entries) : Except Toml.Error Description := do
  let entries ← knownEntries ["id", "destination", "content"] entries
  let id ← entries.withDefault "id" 0 (Value.integerIn Int32.minValue.toInt Int32.maxValue.toInt)
  return {
    id := Int32.ofInt id
    destination := ← entries.optional "destination" DestinationSpec.ofToml
    content := ← entries.optional "content" ContentSpec.ofToml }

/-- A description in a document. -/
def ofToml (text : String) : Except Toml.Error Description := do
  ofEntries (← Toml.parse text)

end Description

end EnvelopeWire
