import EnvelopeWire.Bytes.LittleEndian
import EnvelopeWire.Text.Quoted

/-!
# Hexadecimal

Bytes are shown as two digits each, high digit first, in lower case. Digits are read from text as
its bytes, in either case; an odd number of them is refused before any of them is looked at.

* `Hex.decode_digits`: the digits of a byte string read back as that byte string.
* `Hex.length_digits`: there are two digits for each byte.
-/

namespace EnvelopeWire.Hex

/-- Why digits do not spell bytes. -/
inductive Error
  | oddLength
  /-- The byte at `position` is not a digit. -/
  | invalidDigit (byte : UInt8) (position : Nat)
deriving DecidableEq, Repr

/-- The wording of an error. A byte is shown as the character with its number. -/
def Error.message : Error → String
  | oddLength => "Odd number of digits"
  | invalidDigit byte position =>
    let shown := Text.quotedChar (Char.ofNat byte.toNat)
    s!"Invalid character {shown} at position {position}"

/-- The digit for `n`, which is below 16, as an ASCII code. -/
def digit (n : Nat) : UInt8 := UInt8.ofNat (if n < 10 then 48 + n else 87 + n)

/-- The number that a digit stands for. -/
def value? (b : UInt8) : Option Nat :=
  if 48 ≤ b.toNat ∧ b.toNat ≤ 57 then some (b.toNat - 48)
  else if 97 ≤ b.toNat ∧ b.toNat ≤ 102 then some (b.toNat - 87)
  else if 65 ≤ b.toNat ∧ b.toNat ≤ 70 then some (b.toNat - 55)
  else none

/-- The digits of a byte string, as ASCII codes. -/
def digits (bs : Bytes) : Bytes :=
  bs.flatMap fun b => [digit (b.toNat / 16), digit (b.toNat % 16)]

/-- The digits of a byte string, as text. -/
def encode (bs : Bytes) : String :=
  String.ofList ((digits bs).map fun d => Char.ofNat d.toNat)

/-- The two digits of one byte. -/
def byte (b : UInt8) : String := encode [b]

/-- The number that the digit `b` at `position` stands for. -/
def valueAt (position : Nat) (b : UInt8) : Except Error Nat :=
  match value? b with
  | some n => .ok n
  | none => .error (.invalidDigit b position)

/-- The bytes that pairs of digits spell, the first digit being at `position`. -/
def decodePairs (position : Nat) : Bytes → Except Error Bytes
  | high :: low :: rest => do
    let h ← valueAt position high
    let l ← valueAt (position + 1) low
    return UInt8.ofNat (16 * h + l) :: (← decodePairs (position + 2) rest)
  | _ => .ok []

/-- The bytes that an even number of digits spells. -/
def decode (text : Bytes) : Except Error Bytes :=
  if text.length % 2 = 0 then decodePairs 0 text else .error .oddLength

private theorem value?_digit : ∀ n < 16, value? (digit n) = some n := by decide

/-- The digits of bytes are read back pair by pair. -/
private theorem decodePairs_digits (position : Nat) (bs : Bytes) :
    decodePairs position (digits bs) = .ok bs := by
  induction bs generalizing position with
  | nil => rfl
  | cons b bs ih =>
    have hb : b.toNat < 256 := b.toNat_lt
    have hhigh := value?_digit (b.toNat / 16) (by omega)
    have hlow := value?_digit (b.toNat % 16) (by omega)
    have hsum : 16 * (b.toNat / 16) + b.toNat % 16 = b.toNat := by omega
    rw [digits, List.flatMap_cons]
    simp only [List.cons_append, List.nil_append, decodePairs, valueAt, hhigh, hlow]
    rw [← digits, ih]
    simp [bind, Except.bind, pure, Except.pure, hsum]

/-- There are two digits for each byte. -/
@[simp]
theorem length_digits (bs : Bytes) : (digits bs).length = 2 * bs.length := by
  induction bs with
  | nil => rfl
  | cons b bs ih =>
    rw [digits] at ih ⊢
    rw [List.flatMap_cons, List.length_append, ih, List.length_cons]
    simp only [List.length_cons, List.length_nil]
    omega

/-- The digits of bytes are read back. -/
theorem decode_digits (bs : Bytes) : decode (digits bs) = .ok bs := by
  rw [decode, if_pos (by rw [length_digits]; omega), decodePairs_digits]

end EnvelopeWire.Hex
