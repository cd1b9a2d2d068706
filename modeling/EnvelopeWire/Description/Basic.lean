import EnvelopeWire.Envelope.Basic

/-!
# Descriptions of envelopes

A description says what an envelope is to hold, and `Description.encode` writes it: the
destination first, then the content, then the envelope that refers to both.
-/

namespace EnvelopeWire

/-- The destination of an envelope to write. -/
structure DestinationSpec where
  kind : DestinationKind
  target : Option String
deriving DecidableEq, Repr

/-- The content of an envelope to write. -/
inductive ContentSpec
  | noMessage
  | success
  | error (code : UInt16) (category reason : Option String)
  /-- An object without fields under a tag of the writer's choice. -/
  | raw (tag : UInt8)
deriving DecidableEq, Repr

/-- An envelope to write. -/
structure Description where
  id : Int32
  destination : Option DestinationSpec
  content : Option ContentSpec
deriving DecidableEq, Repr

/-- Why a description cannot be encoded. -/
inductive EncodeError
  /-- The content cannot be tagged as described. -/
  | content (error : EnvelopeError)
  /-- The builder fails. -/
  | builder (failure : Failure)
deriving DecidableEq, Repr

/-- The wording of an error. -/
def EncodeError.message : EncodeError → String
  | content error => "invalid content: " ++ error.message
  | builder failure => failure.message

/-- Writes the destination. -/
def DestinationSpec.write (d : DestinationSpec) : Build Offset :=
  Destination.create d.kind d.target

/-- Writes the content. The object of a raw content is written before its tag is looked at. -/
def ContentSpec.write : ContentSpec → Build (Except EnvelopeError ContentRef)
  | noMessage => return .ok (← ContentRef.noMessage)
  | success => return .ok (← ContentRef.success)
  | error code category reason => return .ok (← ContentRef.error code category reason)
  | raw tag => return ContentRef.ofTag tag (← createEmpty)

namespace Description

/-- Writes the envelope around a destination and a content, and finishes the buffer. -/
def writeEnvelope (id : Int32) (destination : Option Offset) (content : Option ContentRef) :
    Build Bytes := do
  Build.finish (← Envelope.create destination content id)
  Build.finishedData .takeFinishedData

/-- Writes the whole buffer. -/
def write (d : Description) : Build (Except EnvelopeError Bytes) := do
  let destination ← d.destination.mapM DestinationSpec.write
  match ← d.content.mapM ContentSpec.write with
  | none => return .ok (← writeEnvelope d.id destination none)
  | some (.ok content) => return .ok (← writeEnvelope d.id destination (some content))
  | some (.error e) => return .error e

/-- The buffer that a description stands for. -/
def encode (options : BuilderOptions) (d : Description) : Except EncodeError Bytes :=
  match d.write (Builder.withOptions options) with
  | .ok (.ok bytes, _) => .ok bytes
  | .ok (.error e, _) => .error (.content e)
  | .error failure => .error (.builder failure)

end Description

end EnvelopeWire
