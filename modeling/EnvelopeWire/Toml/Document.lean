import EnvelopeWire.Toml.Date
import EnvelopeWire.Toml.Node
import EnvelopeWire.Toml.Number

/-!
# TOML documents

The grammar of TOML 1.0. A document is a sequence of lines, each empty or with one statement: a
pair of a key and a value, or a header. Arrays and inline tables nest up to `maxDepth` levels, and
a dotted key has fewer than `maxKeyLength` parts.

* `parse`: the table that a document stands for.
-/

namespace EnvelopeWire.Toml

/-- How deep arrays and inline tables nest. -/
def maxDepth : Nat := 79

/-- The number of parts that a dotted key may not reach. -/
def maxKeyLength : Nat := 80

/-- A part of a key: a string on one line, or bare. -/
def simpleKey : Parser String :=
  basicString <|> literalString <|> do
    let first ← Parser.satisfy isBareChar
    let more ← Parser.takeWhile isBareChar
    return String.ofList (first :: more)

/-- A key, of parts with dots between them. -/
def key : Parser Key := do
  let parts ← Parser.sepBy1 (blanks *> simpleKey <* blanks) (Parser.char '.')
  match parts.reverse with
  | name :: path =>
    if parts.length < maxKeyLength then return ⟨path.reverse, name⟩ else failure
  | [] => failure

/-- A boolean. -/
def boolean : Parser Bool :=
  (do Parser.chars ['t', 'r', 'u', 'e']; return true)
  <|> (do Parser.chars ['f', 'a', 'l', 's', 'e']; return false)

/-- A value that holds no other values. -/
def scalar : Parser Value :=
  (do return .string (← string))
  <|> (do return .datetime (← datetime))
  <|> (do return .float (← float))
  <|> (do return .integer (← integer))
  <|> (do return .boolean (← boolean))

/-- The items of an array. The last one may be followed by a comma. -/
def array (item : Parser Value) : Parser (List Value) := do
  Parser.char '['
  let items ← Parser.optional do
    let items ← Parser.sepBy1 (trivia *> item <* trivia) (Parser.char ',')
    let _ ← Parser.optional (Parser.char ',')
    return items
  trivia
  Parser.char ']'
  return items.getD []

/-- A key, an equals sign and a value. -/
def pair (item : Parser Value) : Parser (Key × Value) := do
  let k ← key
  Parser.char '='
  blanks
  return (k, ← item)

/-- A table between braces, on one line. -/
def inlineTable (item : Parser Value) : Parser Entries := do
  Parser.char '\x7b'
  let pairs ← Parser.sepBy (pair item <* blanks) (Parser.char ',')
  blanks
  Parser.char '\x7d'
  match Entries.ofPairs pairs with
  | .ok table => return table
  | .error _ => failure

/-- A value in which arrays and inline tables nest up to `depth` levels. -/
def value : (depth : Nat) → Parser Value
  | 0 => scalar
  | depth + 1 =>
    scalar
    <|> (do return .array (← array (value depth)))
    <|> (do return .table (← inlineTable (value depth)))

/-- A key between brackets. -/
def header : Parser Statement :=
  (do
    Parser.chars ['[', '[']
    let k ← key
    Parser.chars [']', ']']
    return .arrayHeader k)
  <|> (do
    Parser.char '['
    let k ← key
    Parser.char ']'
    return .header k)

/-- A statement. -/
def statement : Parser Statement :=
  header <|> do
    let (k, v) ← pair (value maxDepth)
    return .pair k v

/-- A line, with its statement if it has one. -/
def line : Parser (Option Statement) := do
  Parser.notAtEnd
  blanks
  let s ← Parser.optional statement
  lineEnd
  return s

/-- The statements of a document. A byte-order mark in front is skipped. -/
def document : Parser (List Statement) := do
  let _ ← Parser.optional (Parser.char '\ufeff')
  let lines ← Parser.many line
  Parser.atEnd
  return lines.filterMap id

/-- The table that a document stands for. -/
def parse (text : String) : Except Error Entries :=
  match document text.toList with
  | some (statements, _) => Entries.ofStatements statements
  | none => .error .malformed

end EnvelopeWire.Toml
