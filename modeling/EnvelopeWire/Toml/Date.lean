import EnvelopeWire.Text.Parser

/-!
# Dates and times in TOML

A date, a time of day, or a date with a time of day and possibly an offset from universal time.
The day has to exist in its month; a minute may have a leap second.
-/

namespace EnvelopeWire.Toml

/-- The number that `count` decimal digits spell. -/
def fixedDigits : (count : Nat) → Parser Nat
  | 0 => pure 0
  | count + 1 => do
    let n ← fixedDigits count
    let d ← Parser.satisfy Char.isDigit
    return 10 * n + (d.toNat - 48)

/-- Two digits that spell a number in a range. -/
def twoDigits (low high : Nat) : Parser Nat := do
  let n ← fixedDigits 2
  if low ≤ n ∧ n ≤ high then return n else failure

/-- Whether a year has a 29th of February. -/
def isLeapYear (year : Nat) : Bool :=
  year % 4 = 0 ∧ (year % 100 ≠ 0 ∨ year % 400 = 0)

/-- The number of days in a month. -/
def daysInMonth (year month : Nat) : Nat :=
  if month = 2 then (if isLeapYear year then 29 else 28)
  else if month = 4 ∨ month = 6 ∨ month = 9 ∨ month = 11 then 30
  else 31

/-- A day of a year. -/
def date : Parser Unit := do
  let year ← fixedDigits 4
  Parser.char '-'
  let month ← twoDigits 1 12
  Parser.char '-'
  let _ ← twoDigits 1 (daysInMonth year month)

/-- A time of day, with any number of digits behind the seconds. -/
def time : Parser Unit := do
  let _ ← twoDigits 0 23
  Parser.char ':'
  let _ ← twoDigits 0 59
  Parser.char ':'
  let _ ← twoDigits 0 60
  let _ ← Parser.optional do
    Parser.char '.'
    let _ ← Parser.satisfy Char.isDigit
    Parser.takeWhile Char.isDigit

/-- The offset of a time from universal time. -/
def timeOffset : Parser Unit :=
  (do let _ ← Parser.satisfy fun c => c = 'Z' ∨ c = 'z')
  <|> (do
    let _ ← Parser.satisfy fun c => c = '+' ∨ c = '-'
    let _ ← twoDigits 0 23
    Parser.char ':'
    let _ ← twoDigits 0 59)

/-- A date, a time, or both, as it is written. -/
def datetime : Parser String := do
  let (_, text) ← Parser.withText <|
    (do
      date
      let _ ← Parser.optional do
        let _ ← Parser.satisfy fun c => c = 'T' ∨ c = 't' ∨ c = ' '
        time
        Parser.optional timeOffset)
    <|> time
  return String.ofList text

end EnvelopeWire.Toml
