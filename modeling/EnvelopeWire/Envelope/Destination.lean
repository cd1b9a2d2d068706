import EnvelopeWire.Builder.Basic
import EnvelopeWire.Envelope.Error
import EnvelopeWire.Table.Basic

/-!
# Destinations

A destination says where an envelope goes: to a module or to a topic, with an optional name. It
is a table with two slots, the kind in slot 0 (a byte, by default that of a module) and the name
in slot 1 (a string, absent by default).
-/

namespace EnvelopeWire

/-- Whether a destination is a single module or a broadcast topic. -/
inductive DestinationKind
  | module
  | topic
deriving DecidableEq, Repr, Inhabited

namespace DestinationKind

/-- The byte of a kind. -/
def toByte : DestinationKind → UInt8
  | module => 0
  | topic => 1

/-- The kind of a byte. -/
def ofByte (byte : UInt8) : Except EnvelopeError DestinationKind :=
  if byte = 0 then .ok module
  else if byte = 1 then .ok topic
  else .error (.unknownDestinationKind byte)

/-- The name under which texts speak of a kind. -/
def name : DestinationKind → String
  | module => "module"
  | topic => "topic"

@[simp]
theorem ofByte_toByte (kind : DestinationKind) : ofByte kind.toByte = .ok kind := by
  cases kind <;> rfl

end DestinationKind

/-- A table viewed as a destination. -/
structure Destination where
  table : Table
deriving DecidableEq, Repr

namespace Destination

/-- The byte of the kind. -/
def kindByte (d : Destination) : UInt8 := (d.table.get .u8 0 0).toOption.getD 0

/-- The kind, unless its byte is unknown. -/
def kind (d : Destination) : Option DestinationKind :=
  (DestinationKind.ofByte d.kindByte).toOption

/-- The name. -/
def target (d : Destination) : Option String := (d.table.getString 1).toOption.join

/-- Writes a destination. -/
def create (kind : DestinationKind) (target : Option String) : Build Offset := do
  let target ← target.mapM Build.createString
  Build.startObject 2
  if let some target := target then
    Build.pushSlotOffset 1 target
  Build.pushSlot .u8 0 kind.toByte DestinationKind.module.toByte
  Build.endObject

end Destination

instance : Record Destination where
  ofTable table := do
    let _ ← table.get .u8 0 0
    let _ ← table.getString 1
    return { table := table }

end EnvelopeWire
