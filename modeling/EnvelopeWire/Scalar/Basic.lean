import EnvelopeWire.Bytes.LittleEndian
import EnvelopeWire.Scalar.FloatBits

/-!
# Scalars

A scalar field holds one of eleven types, `ScalarType`, and takes `ScalarType.width` bytes,
little-endian. `encode` and `decode` go through the bit pattern of a value, so one pair of
functions serves all types; a `bool` is one byte, and any byte but zero reads as true.

* `ScalarType.decode_encode`: a value reads back as itself, bit for bit.
* `ScalarType.length_encode`: every value of a type takes the same number of bytes.
-/

namespace EnvelopeWire

/-- The types of a scalar field. -/
inductive ScalarType
  | u8 | i8 | u16 | i16 | u32 | i32 | u64 | i64 | f32 | f64 | bool
deriving DecidableEq, Repr

namespace ScalarType

/-- The number of bytes a value takes; a value is aligned to its own width. -/
def width : ScalarType → Nat
  | u8 | i8 | bool => 1
  | u16 | i16 => 2
  | u32 | i32 | f32 => 4
  | u64 | i64 | f64 => 8

/-- The values of a type. -/
@[reducible]
def Value : ScalarType → Type
  | u8 => UInt8
  | i8 => Int8
  | u16 => UInt16
  | i16 => Int16
  | u32 => UInt32
  | i32 => Int32
  | u64 => UInt64
  | i64 => Int64
  | f32 => Binary32
  | f64 => Binary64
  | bool => Bool

/-- The bit pattern of a value, as a number. -/
def bits : (t : ScalarType) → t.Value → Nat
  | u8, v => UInt8.toNat v
  | i8, v => (Int8.toUInt8 v).toNat
  | u16, v => UInt16.toNat v
  | i16, v => (Int16.toUInt16 v).toNat
  | u32, v => UInt32.toNat v
  | i32, v => (Int32.toUInt32 v).toNat
  | u64, v => UInt64.toNat v
  | i64, v => (Int64.toUInt64 v).toNat
  | f32, v => (Binary32.bits v).toNat
  | f64, v => (Binary64.bits v).toNat
  | bool, v => Bool.toNat v

/-- The value with the bit pattern `n`. -/
def ofBits : (t : ScalarType) → Nat → t.Value
  | u8, n => UInt8.ofNat n
  | i8, n => Int8.ofUInt8 (UInt8.ofNat n)
  | u16, n => UInt16.ofNat n
  | i16, n => Int16.ofUInt16 (UInt16.ofNat n)
  | u32, n => UInt32.ofNat n
  | i32, n => Int32.ofUInt32 (UInt32.ofNat n)
  | u64, n => UInt64.ofNat n
  | i64, n => Int64.ofUInt64 (UInt64.ofNat n)
  | f32, n => Binary32.mk (UInt32.ofNat n)
  | f64, n => Binary64.mk (UInt64.ofNat n)
  | bool, n => n != 0

/-- The bits of a scalar fit in its bytes. -/
private theorem bits_lt (t : ScalarType) (v : t.Value) : t.bits v < Nat.pow 256 t.width := by
  cases t <;> simp only [bits, width]
  case u8 => exact UInt8.toNat_lt v
  case i8 => exact UInt8.toNat_lt _
  case u16 => exact UInt16.toNat_lt v
  case i16 => exact UInt16.toNat_lt _
  case u32 => exact UInt32.toNat_lt v
  case i32 => exact UInt32.toNat_lt _
  case u64 => exact UInt64.toNat_lt v
  case i64 => exact UInt64.toNat_lt _
  case f32 => exact UInt32.toNat_lt _
  case f64 => exact UInt64.toNat_lt _
  case bool => exact Nat.lt_of_le_of_lt (Bool.toNat_le v) (by decide)

/-- A scalar is the one with its own bits. -/
private theorem ofBits_bits (t : ScalarType) (v : t.Value) : t.ofBits (t.bits v) = v := by
  cases t <;> simp only [bits, ofBits]
  case bool => cases v <;> rfl
  all_goals simp

/-- The bytes of a value. -/
def encode (t : ScalarType) (v : t.Value) : Bytes := littleEndian t.width (t.bits v)

/-- The value that `t.width` bytes hold. -/
def decode (t : ScalarType) (bs : Bytes) : t.Value := t.ofBits (ofLittleEndian bs)

/-- A scalar is written in as many bytes as its type is wide. -/
@[simp]
theorem length_encode (t : ScalarType) (v : t.Value) : (t.encode v).length = t.width := by
  simp [encode]

/-- A scalar that is written is read back. -/
@[simp]
theorem decode_encode (t : ScalarType) (v : t.Value) : t.decode (t.encode v) = v := by
  rw [decode, encode, ofLittleEndian_littleEndian, Nat.mod_eq_of_lt (t.bits_lt v), ofBits_bits]

/-- Whether two values are equal as numbers: bit for bit, except for floating point, where the
zeros agree and a NaN agrees with nothing. -/
def agrees : (t : ScalarType) → t.Value → t.Value → Bool
  | u8, v, w => decide (v = w)
  | i8, v, w => decide (v = w)
  | u16, v, w => decide (v = w)
  | i16, v, w => decide (v = w)
  | u32, v, w => decide (v = w)
  | i32, v, w => decide (v = w)
  | u64, v, w => decide (v = w)
  | i64, v, w => decide (v = w)
  | f32, v, w => Binary32.agrees v w
  | f64, v, w => Binary64.agrees v w
  | bool, v, w => decide (v = w)

theorem width_pos (t : ScalarType) : 0 < t.width := by cases t <;> decide

/-- No scalar is wider than eight bytes. -/
theorem width_le (t : ScalarType) : t.width ≤ 8 := by cases t <;> decide

end ScalarType

end EnvelopeWire
