import EnvelopeWire.Builder.Basic
import EnvelopeWire.Toml.Document
import EnvelopeWire.Toml.Schema

/-!
# Settings

The settings of the tool, as a TOML document with two tables, both optional: `builder` with
`initial_capacity` and `force_defaults`, and `output` with `format`. Keys without a meaning are
refused, and what is left out keeps its default.
-/

namespace EnvelopeWire

open Toml

/-- How results are shown. -/
inductive OutputFormat
  | text
  | json
  | hex
deriving DecidableEq, Repr, Inhabited

namespace OutputFormat

/-- The formats with their names. -/
def names : List (String × OutputFormat) := [("text", text), ("json", json), ("hex", hex)]

/-- The name of a format. -/
def name : OutputFormat → String
  | text => "text"
  | json => "json"
  | hex => "hex"

end OutputFormat

/-- The settings of the tool. -/
structure Settings where
  builder : BuilderOptions := {}
  format : OutputFormat := .text
deriving DecidableEq, Repr

/-- The set-up of the builder. -/
def BuilderOptions.ofToml (v : Value) : Except Toml.Error BuilderOptions := do
  let entries ← v.fields ["initial_capacity", "force_defaults"]
  let capacity ← entries.withDefault "initial_capacity" 1024
    (Value.integerIn 0 Int64.maxValue.toInt)
  return {
    initialCapacity := capacity.toNat
    forceDefaults := ← entries.withDefault "force_defaults" false Value.truth }

/-- The output format within its table. -/
def OutputFormat.ofToml (v : Value) : Except Toml.Error OutputFormat := do
  let entries ← v.fields ["format"]
  entries.withDefault "format" .text (Value.named names)

namespace Settings

/-- Settings in a table. -/
def ofEntries (entries : Entries) : Except Toml.Error Settings := do
  let entries ← knownEntries ["builder", "output"] entries
  return {
    builder := ← entries.withDefault "builder" {} BuilderOptions.ofToml
    format := ← entries.withDefault "output" .text OutputFormat.ofToml }

/-- Settings in a document. -/
def ofToml (text : String) : Except Toml.Error Settings := do
  ofEntries (← Toml.parse text)

end Settings

end EnvelopeWire
