/-!
# What is wrong with a buffer

Every failure of a read is a `WireError` that names its cause; `WireError.message` words it. A
field that is absent is never an error.

One question has another way to fail. Whoever asks where a field is chooses its size, and a size so
large that the end of the field is no number of 64 bits stops the program: `FieldFailure.overflow`.
-/

namespace EnvelopeWire

/-- How a vtable contradicts itself or its object. -/
inductive VTableDefect
  /-- The stored length is odd or smaller than the vtable's own header. -/
  | length
  /-- The stored object length is smaller than the vtable reference that starts every object. -/
  | objectLength
  /-- A field starts inside the vtable reference or ends behind its object. -/
  | fieldOutsideObject
deriving DecidableEq, Repr

/-- The wording of a defect. -/
def VTableDefect.message : VTableDefect → String
  | length => "length must be even and cover the 4-byte header"
  | objectLength => "object is smaller than its own vtable offset"
  | fieldOutsideObject => "field lies outside its object"

/-- Why a read of a finished buffer fails. -/
inductive WireError
  /-- The buffer does not even hold the root reference. -/
  | tooShort (length : Nat)
  /-- The `size` bytes at `position` are not all in the buffer of `length` bytes. -/
  | outOfBounds (position size length : Nat)
  /-- The vtable at `position` is defective. -/
  | badVTable (position : Nat) (defect : VTableDefect)
  /-- The string whose length is stored at `position` is not UTF-8. -/
  | invalidUtf8 (position : Nat)
deriving DecidableEq, Repr

/-- The wording of an error. -/
def WireError.message : WireError → String
  | tooShort length => s!"buffer too short: {length} bytes (minimum 4)"
  | outOfBounds position size length =>
    s!"offset {position} + {size} bytes is outside a {length}-byte buffer"
  | badVTable position defect =>
    let reason := defect.message
    s!"invalid vtable at {position}: {reason}"
  | invalidUtf8 position => s!"string at {position} is not valid utf-8"

/-- Why it is not told where a field of some size is. -/
inductive FieldFailure
  /-- The object or its vtable is defective, or the field does not lie inside the object. -/
  | wire (error : WireError)
  /-- The offset of the field and its size make a sum that leaves its word. -/
  | overflow
deriving DecidableEq, Repr

/-- The wording of a failure. -/
def FieldFailure.message : FieldFailure → String
  | wire error => error.message
  | overflow => "attempt to add with overflow"

end EnvelopeWire
