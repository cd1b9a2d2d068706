import EnvelopeWire.Builder.Basic
import EnvelopeWire.Envelope.Error
import EnvelopeWire.Table.Basic

/-!
# Contents

The content of an envelope is a table together with a tag that says what the table is. Tag 0
stands for no content, tags 1 to 3 are the `ContentType`s, and any other tag is legal.

* `ContentRef`: a tag and the place of a table in a buffer under construction. The tag is not
  zero, so a reference always stands for a content.
* `Content`: what a reader gets, with the tag interpreted.
* `ErrorContent`: the table of an error, with a code in slot 0, a category in slot 1 and a reason
  in slot 2.
-/

namespace EnvelopeWire

/-- The content types with a meaning of their own. -/
inductive ContentType
  | none
  | noMessage
  | error
  | success
deriving DecidableEq, Repr

namespace ContentType

/-- The tag of a type. -/
def toByte : ContentType → UInt8
  | .none => 0
  | .noMessage => 1
  | .error => 2
  | .success => 3

/-- The type of a tag. -/
def ofByte (byte : UInt8) : Except EnvelopeError ContentType :=
  if byte = 0 then .ok .none
  else if byte = 1 then .ok .noMessage
  else if byte = 2 then .ok .error
  else if byte = 3 then .ok .success
  else .error (.unknownContentType byte)

/-- The name under which texts speak of a type. -/
def name : ContentType → String
  | .none => "none"
  | .noMessage => "no_message"
  | .error => "error"
  | .success => "success"

@[simp]
theorem ofByte_toByte (type : ContentType) : ofByte type.toByte = .ok type := by
  cases type <;> rfl

/-- Each type has one tag. -/
theorem toByte_of_ofByte {byte : UInt8} {type : ContentType} (h : ofByte byte = .ok type) :
    type.toByte = byte := by
  rw [ofByte] at h
  repeat' split at h
  all_goals cases h
  all_goals
    symm
    assumption

end ContentType

/-! ### Errors as content -/

/-- A table viewed as an error. -/
structure ErrorContent where
  table : Table
deriving DecidableEq, Repr

namespace ErrorContent

/-- The number of the error. -/
def code (e : ErrorContent) : UInt16 := (e.table.get .u16 0 0).toOption.getD 0

/-- The kind of error. -/
def category (e : ErrorContent) : Option String := (e.table.getString 1).toOption.join

/-- What went wrong. -/
def reason (e : ErrorContent) : Option String := (e.table.getString 2).toOption.join

/-- Writes an error. -/
def create (code : UInt16) (category reason : Option String) : Build Offset := do
  let category ← category.mapM Build.createString
  let reason ← reason.mapM Build.createString
  Build.startObject 3
  if let some reason := reason then
    Build.pushSlotOffset 2 reason
  if let some category := category then
    Build.pushSlotOffset 1 category
  Build.pushSlot .u16 0 code 0
  Build.endObject

end ErrorContent

instance : Record ErrorContent where
  ofTable table := do
    let _ ← table.get .u16 0 0
    let _ ← table.getString 1
    let _ ← table.getString 2
    return { table := table }

/-! ### Contents to write -/

/-- Writes an object without fields. -/
def createEmpty : Build Offset := do
  Build.startObject 0
  Build.endObject

/-- A table in a buffer under construction, with the tag that says what it is. -/
structure ContentRef where
  tag : UInt8
  offset : Offset
  tag_ne_zero : tag ≠ 0
deriving DecidableEq, Repr

namespace ContentRef

/-- The table at `offset` under any tag but zero. -/
def ofTag (tag : UInt8) (offset : Offset) : Except EnvelopeError ContentRef :=
  if h : tag = 0 then .error .reservedContentTag
  else .ok { tag := tag, offset := offset, tag_ne_zero := h }

/-- The table at `offset` as content of a known type. -/
def ofType (type : ContentType) (offset : Offset) : Except EnvelopeError ContentRef :=
  ofTag type.toByte offset

/-- Writes the content that says that there is no message. -/
def noMessage : Build ContentRef :=
  return { tag := 1, offset := ← createEmpty, tag_ne_zero := by decide }

/-- Writes the content that reports success. -/
def success : Build ContentRef :=
  return { tag := 3, offset := ← createEmpty, tag_ne_zero := by decide }

/-- Writes the content that reports an error. -/
def error (code : UInt16) (category reason : Option String) : Build ContentRef :=
  return {
    tag := 2
    offset := ← ErrorContent.create code category reason
    tag_ne_zero := by decide }

end ContentRef

/-! ### Contents that are read -/

/-- The content of an envelope, with its tag interpreted. -/
inductive Content
  | none
  | noMessage
  | error (content : ErrorContent)
  | success
  | other (tag : UInt8) (table : Table)
deriving DecidableEq, Repr

/-- The tag that a content is stored under. -/
def Content.tag : Content → UInt8
  | .none => 0
  | .noMessage => 1
  | .error _ => 2
  | .success => 3
  | .other tag _ => tag

end EnvelopeWire
