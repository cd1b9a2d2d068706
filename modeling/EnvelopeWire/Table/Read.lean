import EnvelopeWire.Bytes.Slice
import EnvelopeWire.Bytes.Utf8
import EnvelopeWire.Scalar.Basic
import EnvelopeWire.Table.Error

/-!
# Reading at a position

The three things that stand at a position of a buffer: a scalar, a vector of bytes with its
length in front, and a string, which is a vector that must be UTF-8. Each read checks that all
its bytes are in the buffer.

* `Bytes.read_eq_ok_iff`: a range is read exactly when it lies in the buffer.
* `Bytes.read_eq_error_iff`: the error names the range that leaves the buffer.
-/

namespace EnvelopeWire

/-- The `size` bytes at `position`, or the error that they are not all there. -/
def Bytes.read (b : Bytes) (position size : Nat) : Except WireError Bytes :=
  match b.slice? position size with
  | some s => .ok s
  | none => .error (.outOfBounds position size b.length)

/-- A range is read exactly when it lies in the buffer. -/
theorem Bytes.read_eq_ok_iff {b s : Bytes} {position size : Nat} :
    b.read position size = .ok s ↔
      position + size ≤ b.length ∧ (b.drop position).take size = s := by
  rw [← Bytes.slice?_eq_some_iff, Bytes.read]
  cases b.slice? position size <;> simp

/-- The error of a read names the range that leaves the buffer. -/
theorem Bytes.read_eq_error_iff {b : Bytes} {position size : Nat} {e : WireError} :
    b.read position size = .error e ↔
      b.length < position + size ∧ e = .outOfBounds position size b.length := by
  rw [← Bytes.slice?_eq_none_iff, Bytes.read]
  cases b.slice? position size <;> simp [eq_comm]

/-- The scalar of type `t` at `position`. -/
def readScalar (t : ScalarType) (b : Bytes) (position : Nat) : Except WireError t.Value :=
  (b.read position t.width).map t.decode

/-- The bytes of the vector at `position`: a 32-bit count, then as many bytes. -/
def readVector (b : Bytes) (position : Nat) : Except WireError Bytes := do
  let count ← readScalar .u32 b position
  b.read (position + 4) count.toNat

/-- The string at `position`: a vector whose bytes are UTF-8. The zero byte that follows a string
is not part of it. -/
def readString (b : Bytes) (position : Nat) : Except WireError String := do
  match utf8? (← readVector b position) with
  | some s => return s
  | none => throw (.invalidUtf8 position)

end EnvelopeWire
