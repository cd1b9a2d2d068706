/-!
# Parsers

A `Parser α` takes a result off the front of a text and gives it with the rest, or fails. Choice
is by `<|>`, which tries its right side on the same text when the left side fails.

Repetition ends when the item fails or takes nothing, so it always ends.
-/

namespace EnvelopeWire

/-- A function that takes something off the front of a text. -/
abbrev Parser (α : Type) := StateT (List Char) Option α

namespace Parser

variable {α β : Type}

/-- Succeeds at the end of the text only. -/
def atEnd : Parser Unit := fun s => if s.isEmpty then some ((), s) else none

/-- Succeeds before the end of the text only. -/
def notAtEnd : Parser Unit := fun s => if s.isEmpty then none else some ((), s)

/-- The next character, if it is in the class. -/
def satisfy (inClass : Char → Bool) : Parser Char := fun s =>
  match s with
  | c :: rest => if inClass c then some (c, rest) else none
  | [] => none

/-- The character `c`. -/
def char (c : Char) : Parser Unit := fun s =>
  match s with
  | d :: rest => if d = c then some ((), rest) else none
  | [] => none

/-- The characters `cs`, one after the other. -/
def chars : List Char → Parser Unit
  | [] => pure ()
  | c :: cs => do
    char c
    chars cs

/-- All characters up to the first that is not in the class. -/
def takeWhile (inClass : Char → Bool) : Parser (List Char) := fun s => some (s.span inClass)

/-- What `p` takes, or nothing. -/
def optional (p : Parser α) : Parser (Option α) := (some <$> p) <|> pure none

/-- What `p` takes, again and again. -/
def manyFrom (p : Parser α) (s : List Char) : List α × List Char :=
  match p s with
  | none => ([], s)
  | some (a, rest) =>
    if rest.length < s.length then
      let (as, rest) := manyFrom p rest
      (a :: as, rest)
    else
      ([a], rest)
termination_by s.length

/-- What `p` takes, again and again, until it fails. -/
def many (p : Parser α) : Parser (List α) := fun s => some (manyFrom p s)

/-- One or more items with separators between them. -/
def sepBy1 (item : Parser α) (separator : Parser Unit) : Parser (List α) := do
  let first ← item
  let more ← many (separator *> item)
  return first :: more

/-- Items with separators between them. -/
def sepBy (item : Parser α) (separator : Parser Unit) : Parser (List α) :=
  sepBy1 item separator <|> pure []

/-- The result of `p` together with the characters it took. -/
def withText (p : Parser α) : Parser (α × List Char) := fun s => do
  let (a, rest) ← p s
  return ((a, s.take (s.length - rest.length)), rest)

end Parser

end EnvelopeWire
