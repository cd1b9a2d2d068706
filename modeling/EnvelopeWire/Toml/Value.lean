/-!
# TOML values

What a TOML document says, without how it says it: a table maps keys to values, and the order of
its entries means nothing. Nothing here computes with a float or a date, so these are kept as they
are written.
-/

namespace EnvelopeWire.Toml

/-- A value of a TOML document. -/
inductive Value
  | string (value : String)
  | integer (value : Int)
  | float (text : String)
  | boolean (value : Bool)
  | datetime (text : String)
  | array (items : List Value)
  | table (entries : List (String × Value))

/-- The entries of a table, no key twice. -/
abbrev Entries := List (String × Value)

/-- Why a document is refused. -/
inductive Error
  /-- The text is not TOML. -/
  | malformed
  /-- The key is defined in two ways that exclude each other. -/
  | conflict (key : String)
  /-- The key has no meaning where it stands. -/
  | unknownKey (key : String)
  /-- The key has to be there. -/
  | missingKey (key : String)
  /-- The name is none of those that may stand there. -/
  | unknownName (name : String)
  /-- An array has too few or too many elements. -/
  | wrongLength
  /-- The integer is too small or too large. -/
  | outOfRange (value : Int)
  /-- Another kind of value is needed. -/
  | wrongType (expected : String)
deriving DecidableEq, Repr

/-- The wording of an error. -/
def Error.message : Error → String
  | malformed => "not a TOML document"
  | conflict key => "conflicting definitions of " ++ key
  | unknownKey key => "unknown key " ++ key
  | missingKey key => "missing key " ++ key
  | unknownName name => "unknown name " ++ name
  | wrongLength => "wrong number of elements"
  | outOfRange value => "integer out of range: " ++ toString value
  | wrongType expected => "expected " ++ expected

end EnvelopeWire.Toml
