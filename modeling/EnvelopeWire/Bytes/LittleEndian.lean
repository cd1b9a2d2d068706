/-!
# Byte strings and little-endian numbers

A buffer is a list of bytes, `Bytes`. A number that takes `n` bytes is written least significant
byte first by `littleEndian n`, and `ofLittleEndian` reads it back.

* `ofLittleEndian_littleEndian`: reading what was written gives the number modulo `Nat.pow 256 n`.
* `littleEndian_ofLittleEndian`: writing what was read gives the bytes again.
* `ofLittleEndian_lt`: `n` bytes hold a number below `Nat.pow 256 n`.
-/

namespace EnvelopeWire

/-- A byte string, first byte first. -/
abbrev Bytes := List UInt8

/-- The `n` low bytes of `x`, least significant first. -/
def littleEndian : Nat → Nat → Bytes
  | 0, _ => []
  | n + 1, x => UInt8.ofNat x :: littleEndian n (x / 256)

/-- The number that `bs` spells, least significant byte first. -/
def ofLittleEndian : Bytes → Nat
  | [] => 0
  | b :: bs => b.toNat + 256 * ofLittleEndian bs

@[simp]
theorem length_littleEndian (n x : Nat) : (littleEndian n x).length = n := by
  induction n generalizing x with
  | zero => rfl
  | succ n ih => simp [littleEndian, ih]

private theorem pow_succ_byte (n : Nat) : Nat.pow 256 (n + 1) = 256 * Nat.pow 256 n :=
  Nat.mul_comm _ _

/-- So many bytes hold numbers below that power of 256. -/
theorem ofLittleEndian_lt (bs : Bytes) : ofLittleEndian bs < Nat.pow 256 bs.length := by
  induction bs with
  | nil => simp [ofLittleEndian]
  | cons b bs ih =>
    have hb : b.toNat < 256 := b.toNat_lt
    rw [ofLittleEndian, List.length_cons, pow_succ_byte]
    omega

/-- A number that is written is read back, as far as it fits. -/
theorem ofLittleEndian_littleEndian (n x : Nat) :
    ofLittleEndian (littleEndian n x) = x % Nat.pow 256 n := by
  induction n generalizing x with
  | zero => simp [littleEndian, ofLittleEndian, Nat.mod_one]
  | succ n ih =>
    rw [littleEndian, ofLittleEndian, ih, pow_succ_byte, Nat.mod_mul]
    simp

/-- Bytes that are read as a number are written again. -/
theorem littleEndian_ofLittleEndian (bs : Bytes) :
    littleEndian bs.length (ofLittleEndian bs) = bs := by
  induction bs with
  | nil => rfl
  | cons b bs ih =>
    have hb : b.toNat < 256 := b.toNat_lt
    have hdiv : (b.toNat + 256 * ofLittleEndian bs) / 256 = ofLittleEndian bs := by omega
    have hmod : UInt8.ofNat (b.toNat + 256 * ofLittleEndian bs) = b := by
      apply UInt8.toNat_inj.mp
      simp
    rw [List.length_cons, ofLittleEndian, littleEndian, hdiv, ih, hmod]

end EnvelopeWire
