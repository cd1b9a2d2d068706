import EnvelopeWire.Scalar.Basic

/-!
# Vtables

A vtable says where the fields of an object lie: its own length, the length of the object, and
then one 16-bit entry per slot with the distance of that field from the start of the object, zero
for a field that is absent. Slots behind the end of the vtable are absent too.

* `VTable.slotCount`, `VTable.fieldOffset`: the entries, by number.
* `VTable.presentSlots`: the entries that are not zero, in slot order.
-/

namespace EnvelopeWire

/-- The distance of the entry for `slot` from the start of a vtable, in 16-bit arithmetic. -/
def voffset (slot : UInt16) : UInt16 := 4 + 2 * slot

/-- A vtable: its bytes, header included, and where in the buffer they start. -/
structure VTable where
  bytes : Bytes
  position : Nat
deriving DecidableEq, Repr

namespace VTable

/-- The number of bytes of the vtable, header included. -/
def length (v : VTable) : Nat := v.bytes.length

/-- The length of the object, which the header stores behind the length of the vtable. -/
def objectLength (v : VTable) : Nat := (ScalarType.u16.decode ((v.bytes.drop 2).take 2)).toNat

/-- The number of slots that have an entry. -/
def slotCount (v : VTable) : Nat := (v.bytes.length - 4) / 2

/-- Whether no slot has an entry. -/
def isEmpty (v : VTable) : Bool := v.slotCount == 0

/-- The distance of the field in `slot` from the start of the object, zero when it is absent. -/
def fieldOffset (v : VTable) (slot : UInt16) : UInt16 :=
  match v.bytes.drop (4 + 2 * slot.toNat) with
  | low :: high :: _ => ScalarType.u16.decode [low, high]
  | _ => 0

/-- The entries that are not zero among `bytes`, whose first entry is for slot number `slot`. -/
def presentFrom (slot : Nat) : Bytes → List (UInt16 × UInt16)
  | low :: high :: rest =>
    let offset : UInt16 := ScalarType.u16.decode [low, high]
    if offset = 0 then presentFrom (slot + 1) rest
    else (UInt16.ofNat slot, offset) :: presentFrom (slot + 1) rest
  | _ => []

/-- The slots that are present with the distances of their fields, in slot order. -/
def presentSlots (v : VTable) : List (UInt16 × UInt16) := presentFrom 0 (v.bytes.drop 4)

end VTable

end EnvelopeWire
