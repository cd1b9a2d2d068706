import EnvelopeWire.Text.Parser
import EnvelopeWire.Toml.Text

/-!
# Numbers in TOML

An integer is decimal with an optional sign, or hexadecimal, octal or binary without one, and has
to fit in 64 bits with sign. A float has a fraction or an exponent, or is one of the special
values. Underscores may stand between two digits.
-/

namespace EnvelopeWire.Toml

/-- Digits in the class up to the first character that is none, with underscores between digits
left out. -/
def digitsFrom (isDigit : Char → Bool) : List Char → List Char × List Char
  | [] => ([], [])
  | '_' :: c :: rest =>
    if isDigit c then
      let (digits, rest) := digitsFrom isDigit rest
      (c :: digits, rest)
    else ([], '_' :: c :: rest)
  | c :: rest =>
    if isDigit c then
      let (digits, rest) := digitsFrom isDigit rest
      (c :: digits, rest)
    else ([], c :: rest)

/-- A digit, and further digits with underscores between them. -/
def digits (isDigit : Char → Bool) : Parser (List Char) := do
  let first ← Parser.satisfy isDigit
  let more ← fun s => some (digitsFrom isDigit s)
  return first :: more

/-- The number that digits spell in a base. -/
def number (base : Nat) (ds : List Char) : Nat :=
  ds.foldl (fun n d => base * n + (hexValue? d).getD 0) 0

/-- An optional sign; whether it is a minus. -/
def sign : Parser Bool :=
  (do Parser.char '-'; return true) <|> (do Parser.char '+'; return false) <|> pure false

/-- Decimal digits without a leading zero. -/
def decimalDigits : Parser (List Char) :=
  (do
    let first ← Parser.satisfy fun c => '1' ≤ c ∧ c ≤ '9'
    let more ← fun s => some (digitsFrom Char.isDigit s)
    return first :: more)
  <|> (do Parser.char '0'; return ['0'])

/-- An integer with its base marked in front. -/
def markedInteger (mark : Char) (base : Nat) : Parser Int := do
  Parser.chars ['0', mark]
  let ds ← digits fun c => (hexValue? c).any (· < base)
  return number base ds

/-- A decimal integer. -/
def decimalInteger : Parser Int := do
  let negative ← sign
  let n := number 10 (← decimalDigits)
  return if negative then -(n : Int) else n

/-- An integer of 64 bits with sign. -/
def integer : Parser Int := do
  let n ← markedInteger 'x' 16 <|> markedInteger 'o' 8 <|> markedInteger 'b' 2 <|> decimalInteger
  if Int64.minValue.toInt ≤ n ∧ n ≤ Int64.maxValue.toInt then return n else failure

/-- The parts of a float: sign, digits without the point, and the power of ten of the last one. -/
structure FloatParts where
  negative : Bool
  digits : Nat
  exponent : Int

/-- The exponent of a float. -/
def exponent : Parser Int := do
  let _ ← Parser.satisfy fun c => c = 'e' ∨ c = 'E'
  let negative ← sign
  let n := number 10 (← digits Char.isDigit)
  return if negative then -(n : Int) else n

/-- A float with a fraction, an exponent or both. -/
def floatParts : Parser FloatParts := do
  let negative ← sign
  let whole ← decimalDigits
  (do
    let e ← exponent
    return ⟨negative, number 10 whole, e⟩)
  <|> (do
    Parser.char '.'
    let fraction ← digits Char.isDigit
    let e := (← Parser.optional exponent).getD 0
    return ⟨negative, number 10 (whole ++ fraction), e - fraction.length⟩)

/-- Whether the number rounds to infinity in double precision: it is at least halfway from the
largest finite number to the next power of two. -/
def FloatParts.overflows (p : FloatParts) : Bool :=
  let size : Int := (toString p.digits).length + p.exponent
  if p.digits = 0 ∨ size < 300 then false
  else if 320 < size then true
  else
    let bound := 0x3fffffffffffff * Nat.pow 2 970
    if p.exponent < 0 then bound * Nat.pow 10 (-p.exponent).toNat ≤ p.digits
    else bound ≤ p.digits * Nat.pow 10 p.exponent.toNat

/-- An infinity or a NaN. -/
def specialFloat : Parser Unit := do
  let _ ← sign
  Parser.chars ['i', 'n', 'f'] <|> Parser.chars ['n', 'a', 'n']

/-- A float, as it is written. A positive number too large for double precision is refused, as it
would be read as an infinity that was not written. -/
def float : Parser String :=
  (do
    let (parts, text) ← Parser.withText floatParts
    if parts.overflows ∧ ¬ parts.negative then failure else return String.ofList text)
  <|> (do
    let (_, text) ← Parser.withText specialFloat
    return String.ofList text)

end EnvelopeWire.Toml
