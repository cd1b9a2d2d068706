import EnvelopeWire.Text.Parser

/-!
# Text in TOML

The lexical layer of TOML: blanks, line ends and comments, and the four kinds of strings. A
control character other than a tab is allowed nowhere but in the ends of lines.
-/

namespace EnvelopeWire.Toml

/-- A blank within a line. -/
def isBlank (c : Char) : Bool := c = ' ' ∨ c = '\t'

/-- A character that may stand in a comment. -/
def isCommentChar (c : Char) : Bool :=
  c = '\t' ∨ 0x20 ≤ c.toNat ∧ c.toNat ≠ 0x7f

/-- A character that stands for itself in a literal string. -/
def isLiteralChar (c : Char) : Bool := isCommentChar c ∧ c ≠ '\x27'

/-- A character that stands for itself in a string with escapes. -/
def isPlainChar (c : Char) : Bool := isCommentChar c ∧ c ≠ '\x22' ∧ c ≠ '\\'

/-- A character of a key without quotes. -/
def isBareChar (c : Char) : Bool := c.isAlphanum ∨ c = '_' ∨ c = '-'

/-- The number that a hexadecimal digit stands for. -/
def hexValue? (c : Char) : Option Nat :=
  if '0' ≤ c ∧ c ≤ '9' then some (c.toNat - 48)
  else if 'a' ≤ c ∧ c ≤ 'f' then some (c.toNat - 87)
  else if 'A' ≤ c ∧ c ≤ 'F' then some (c.toNat - 55)
  else none

/-- The character with the number `n`, if there is one. -/
def char? (n : Nat) : Option Char :=
  if h : n.isValidChar then some (Char.ofNatAux n h) else none

/-! ### Blanks, lines and comments -/

/-- Blanks within a line. -/
def blanks : Parser Unit := do
  let _ ← Parser.takeWhile isBlank

/-- The end of a line. -/
def newline : Parser Unit := Parser.char '\n' <|> Parser.chars ['\r', '\n']

/-- A comment, up to the end of its line. -/
def comment : Parser Unit := do
  Parser.char '#'
  let _ ← Parser.takeWhile isCommentChar

/-- What may follow a statement on its line, and the end of that line or of the document. -/
def lineEnd : Parser Unit := do
  blanks
  let _ ← Parser.optional comment
  newline <|> Parser.atEnd

/-- The text behind blanks, line ends and comments. -/
def skipTrivia (inComment : Bool) : List Char → List Char
  | [] => []
  | '\r' :: '\n' :: rest => skipTrivia false rest
  | '\n' :: rest => skipTrivia false rest
  | c :: rest =>
    if inComment then
      if isCommentChar c then skipTrivia true rest else c :: rest
    else if isBlank c then skipTrivia false rest
    else if c = '#' then skipTrivia true rest
    else c :: rest

/-- Blanks, line ends and comments. -/
def trivia : Parser Unit := fun s => some ((), skipTrivia false s)

/-! ### Strings -/

/-- Where the reading of a string with escapes stands. -/
inductive Mode
  /-- In the text. After `skipping` starts, blanks and line ends count for nothing. -/
  | plain (skipping : Bool)
  /-- Behind a backslash. -/
  | escape
  /-- In a character number of which `left + 1` digits are missing. -/
  | number (left value : Nat)
  /-- Behind a backslash and blanks, where only the end of the line may follow. -/
  | lineBreak

/-- The character that a backslash and `c` stand for. -/
def escaped? (c : Char) : Option Char :=
  match c with
  | 'b' => some '\x08'
  | 't' => some '\t'
  | 'n' => some '\n'
  | 'f' => some '\x0c'
  | 'r' => some '\r'
  | '\x22' => some '\x22'
  | '\\' => some '\\'
  | _ => none

/-- `c` in front of what a reader has read. -/
def consTo (c : Char) (read : List Char × List Char) : List Char × List Char :=
  (c :: read.1, read.2)

/-- The text of a string with escapes up to its closing quotes, and what follows these. A string
over several lines closes with three quotes, of which up to two more in front are text. -/
def escapedText (multiline : Bool) : Mode → List Char → Option (List Char × List Char)
  | _, [] => none
  | .plain skipping, c :: rest =>
    if c = '\x22' then
      if multiline then
        match rest with
        | '\x22' :: '\x22' :: '\x22' :: '\x22' :: rest => some (['\x22', '\x22'], rest)
        | '\x22' :: '\x22' :: '\x22' :: rest => some (['\x22'], rest)
        | '\x22' :: '\x22' :: rest => some ([], rest)
        | rest => (escapedText multiline (.plain false) rest).map (consTo '\x22')
      else some ([], rest)
    else if c = '\\' then escapedText multiline .escape rest
    else if skipping ∧ isBlank c then escapedText multiline (.plain true) rest
    else if isPlainChar c then (escapedText multiline (.plain false) rest).map (consTo c)
    else if multiline then
      match c, rest with
      | '\n', rest =>
        if skipping then escapedText multiline (.plain true) rest
        else (escapedText multiline (.plain false) rest).map (consTo '\n')
      | '\r', '\n' :: rest =>
        if skipping then escapedText multiline (.plain true) rest
        else (escapedText multiline (.plain false) rest).map (consTo '\n')
      | _, _ => none
    else none
  | .escape, c :: rest =>
    if c = 'u' then escapedText multiline (.number 3 0) rest
    else if c = 'U' then escapedText multiline (.number 7 0) rest
    else if multiline ∧ isBlank c then escapedText multiline .lineBreak rest
    else if multiline ∧ c = '\n' then escapedText multiline (.plain true) rest
    else if multiline ∧ c = '\r' then
      match rest with
      | '\n' :: rest => escapedText multiline (.plain true) rest
      | _ => none
    else do
      let d ← escaped? c
      (escapedText multiline (.plain false) rest).map (consTo d)
  | .number left value, c :: rest => do
    let digit ← hexValue? c
    let value := 16 * value + digit
    match left with
    | 0 =>
      let d ← char? value
      (escapedText multiline (.plain false) rest).map (consTo d)
    | left + 1 => escapedText multiline (.number left value) rest
  | .lineBreak, c :: rest =>
    if isBlank c then escapedText multiline .lineBreak rest
    else if c = '\n' then escapedText multiline (.plain true) rest
    else if c = '\r' then
      match rest with
      | '\n' :: rest => escapedText multiline (.plain true) rest
      | _ => none
    else none

/-- The text of a literal string over several lines, and what follows its closing quotes. -/
def literalText : List Char → Option (List Char × List Char)
  | [] => none
  | '\r' :: '\n' :: rest => (literalText rest).map (consTo '\n')
  | c :: rest =>
    if c = '\x27' then
      match rest with
      | '\x27' :: '\x27' :: '\x27' :: '\x27' :: rest => some (['\x27', '\x27'], rest)
      | '\x27' :: '\x27' :: '\x27' :: rest => some (['\x27'], rest)
      | '\x27' :: '\x27' :: rest => some ([], rest)
      | rest => (literalText rest).map (consTo '\x27')
    else if c = '\n' ∨ isLiteralChar c then (literalText rest).map (consTo c)
    else none

/-- A string with escapes on one line. -/
def basicString : Parser String := do
  Parser.char '\x22'
  return String.ofList (← escapedText false (.plain false))

/-- A string with escapes over several lines. A line end right after the opening quotes does not
count. -/
def multilineString : Parser String := do
  Parser.chars ['\x22', '\x22', '\x22']
  let _ ← Parser.optional newline
  return String.ofList (← escapedText true (.plain false))

/-- A string without escapes on one line. -/
def literalString : Parser String := do
  Parser.char '\x27'
  let text ← Parser.takeWhile isLiteralChar
  Parser.char '\x27'
  return String.ofList text

/-- A string without escapes over several lines. -/
def multilineLiteral : Parser String := do
  Parser.chars ['\x27', '\x27', '\x27']
  let _ ← Parser.optional newline
  return String.ofList (← literalText)

/-- A string of any kind. -/
def string : Parser String :=
  multilineString <|> basicString <|> multilineLiteral <|> literalString

end EnvelopeWire.Toml
