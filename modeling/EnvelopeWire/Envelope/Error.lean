import EnvelopeWire.Table.Error
import EnvelopeWire.Text.Hex

/-!
# What is wrong with an envelope

An envelope fails to be read because its bytes are malformed, or because its tag and its content
disagree. `EnvelopeError.isMalformed` tells the two apart.
-/

namespace EnvelopeWire

/-- Why an envelope cannot be built or read. -/
inductive EnvelopeError
  /-- The bytes are malformed. -/
  | wire (error : WireError)
  /-- The byte names no known content type. -/
  | unknownContentType (byte : UInt8)
  /-- The byte names no known kind of destination. -/
  | unknownDestinationKind (byte : UInt8)
  /-- The tag is set and the content is absent. -/
  | missingContent (tag : UInt8)
  /-- The content is present and its tag is zero. -/
  | untaggedContent
  /-- Tag zero stands for no content, so it cannot tag any. -/
  | reservedContentTag
deriving DecidableEq, Repr

namespace EnvelopeError

/-- Whether the bytes are at fault, rather than what they say. -/
def isMalformed : EnvelopeError → Bool
  | wire _ => true
  | _ => false

/-- The wording of an error. -/
def message : EnvelopeError → String
  | wire error => error.message
  | unknownContentType byte =>
    let digits := Hex.byte byte
    s!"unknown content type: 0x{digits}"
  | unknownDestinationKind byte =>
    let digits := Hex.byte byte
    s!"unknown destination kind: 0x{digits}"
  | missingContent tag =>
    let digits := Hex.byte tag
    s!"content type 0x{digits} is set but the content is absent"
  | untaggedContent => "content is present but its type tag is 0"
  | reservedContentTag => "content type 0 cannot tag a content reference"

end EnvelopeError

end EnvelopeWire
