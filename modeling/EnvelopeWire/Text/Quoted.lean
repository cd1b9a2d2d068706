import EnvelopeWire.Text.Hidden

/-!
# Quoted text

Text from a buffer is shown between quotes, so that it cannot be taken for anything else: the
quote and the backslash get a backslash in front, and a character that is not shown as it is
becomes a named escape or its number in hexadecimal.

* `Text.quoted`: a string between double quotes.
* `Text.quotedChar`: a character between single quotes.
-/

namespace EnvelopeWire.Text

/-- The characters that stand for `c` between two `quote`s. -/
def escape (quote c : Char) : List Char :=
  if c = quote then ['\\', c]
  else
    match c with
    | '\\' => ['\\', '\\']
    | '\x00' => ['\\', '0']
    | '\t' => ['\\', 't']
    | '\n' => ['\\', 'n']
    | '\r' => ['\\', 'r']
    | c =>
      if isHidden c then
        ['\\', 'u', '\x7b'] ++ Nat.toDigits 16 c.toNat ++ ['\x7d']
      else [c]

/-- The text between two `quote`s. -/
def enclose (quote : Char) (text : List Char) : List Char :=
  quote :: text.flatMap (escape quote) ++ [quote]

/-- A string between double quotes. -/
def quoted (s : String) : String := String.ofList (enclose '\x22' s.toList)

/-- A character between single quotes. -/
def quotedChar (c : Char) : String := String.ofList (enclose '\x27' [c])

end EnvelopeWire.Text
