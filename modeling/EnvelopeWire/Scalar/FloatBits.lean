/-!
# Binary floating-point numbers as bit patterns

Floating-point fields travel as IEEE 754 bit patterns and no arithmetic is done on them, so a
value is its pattern: sign bit, exponent, fraction. `agrees` is the equality of the numbers that
two patterns stand for. It differs from equality of patterns in two places: the two zeros agree,
and a NaN agrees with nothing, itself included.
-/

namespace EnvelopeWire

/-- A single-precision number, by its 32 bits. -/
structure Binary32 where
  bits : UInt32
deriving DecidableEq, Repr, Inhabited

/-- A double-precision number, by its 64 bits. -/
structure Binary64 where
  bits : UInt64
deriving DecidableEq, Repr, Inhabited

namespace Binary32

/-- The bits without the sign: exponent and fraction. -/
def magnitude (x : Binary32) : Nat := x.bits.toNat % 0x80000000

/-- Exponent all ones and a fraction that is not zero: a magnitude above that of infinity. -/
def isNaN (x : Binary32) : Bool := 0x7f800000 < x.magnitude

/-- One of the two zeros. -/
def isZero (x : Binary32) : Bool := x.magnitude == 0

/-- Whether two patterns stand for the same number. -/
def agrees (x y : Binary32) : Bool :=
  !x.isNaN && !y.isNaN && (x == y || x.isZero && y.isZero)

end Binary32

namespace Binary64

/-- The bits without the sign: exponent and fraction. -/
def magnitude (x : Binary64) : Nat := x.bits.toNat % 0x8000000000000000

/-- Exponent all ones and a fraction that is not zero: a magnitude above that of infinity. -/
def isNaN (x : Binary64) : Bool := 0x7ff0000000000000 < x.magnitude

/-- One of the two zeros. -/
def isZero (x : Binary64) : Bool := x.magnitude == 0

/-- Whether two patterns stand for the same number. -/
def agrees (x y : Binary64) : Bool :=
  !x.isNaN && !y.isNaN && (x == y || x.isZero && y.isZero)

end Binary64

end EnvelopeWire
