import EnvelopeWire.Toml.Value

/-!
# Reading values by schema

How the values of a document become values of a program. A record may be given as a table, whose
keys must all be fields of the record, or as an array of its fields in their order. A name may be
given as a string, or as a table with that name for its only key and something empty, a table or
an array, as value.

* `knownEntries_eq_ok_iff`: a table is accepted exactly when every key is a field.
-/

namespace EnvelopeWire.Toml

/-- The first key in `entries` that is not among `names`. -/
def unknownKey? (names : List String) (entries : Entries) : Option String :=
  (entries.map Prod.fst).find? fun key => !names.contains key

/-- The entries, if all their keys are among `names`. -/
def knownEntries (names : List String) (entries : Entries) : Except Error Entries :=
  match unknownKey? names entries with
  | some key => .error (.unknownKey key)
  | none => .ok entries

namespace Value

/-- The fields of a record, by name. Surplus elements of an array are ignored. -/
def fields (names : List String) : Value → Except Error Entries
  | .table entries => knownEntries names entries
  | .array items => .ok (names.zip items)
  | _ => .error (.wrongType "a table")

/-- A string. -/
def text : Value → Except Error String
  | .string s => .ok s
  | _ => .error (.wrongType "a string")

/-- A boolean. -/
def truth : Value → Except Error Bool
  | .boolean b => .ok b
  | _ => .error (.wrongType "a boolean")

/-- An integer within bounds. -/
def integerIn (low high : Int) : Value → Except Error Int
  | .integer n => if low ≤ n ∧ n ≤ high then .ok n else .error (.outOfRange n)
  | _ => .error (.wrongType "an integer")

/-- What `names` gives for a name. -/
def named {α : Type} (names : List (String × α)) : Value → Except Error α
  | .string name => find name
  | .table [(name, .table [])] | .table [(name, .array [])] => find name
  | _ => .error (.wrongType "a name")
where
  /-- What `names` gives for the string `name`. -/
  find (name : String) : Except Error α :=
    match names.lookup name with
    | some a => .ok a
    | none => .error (.unknownName name)

end Value

/-- The field `name` as `read` reads it, if it is there. -/
def Entries.optional {α : Type} (entries : Entries) (name : String)
    (read : Value → Except Error α) : Except Error (Option α) :=
  (entries.lookup name).mapM read

/-- The field `name` as `read` reads it, or `default`. -/
def Entries.withDefault {α : Type} (entries : Entries) (name : String) (default : α)
    (read : Value → Except Error α) : Except Error α :=
  return (← entries.optional name read).getD default

/-- The field `name` as `read` reads it; it has to be there. -/
def Entries.required {α : Type} (entries : Entries) (name : String)
    (read : Value → Except Error α) : Except Error α :=
  match entries.lookup name with
  | some value => read value
  | none => .error (.missingKey name)

/-- Entries are accepted exactly when every key is among the names. -/
theorem knownEntries_eq_ok_iff {names : List String} {entries known : Entries} :
    knownEntries names entries = .ok known ↔
      (∀ entry ∈ entries, entry.1 ∈ names) ∧ known = entries := by
  rw [knownEntries, unknownKey?]
  split
  case h_1 key h =>
    have hmem := List.mem_of_find?_eq_some h
    have hkey := List.find?_some h
    obtain ⟨entry, he, rfl⟩ := List.mem_map.mp hmem
    simp only [reduceCtorEq, false_iff, not_and]
    intro hall
    simp [hall entry he] at hkey
  case h_2 h =>
    rw [List.find?_eq_none] at h
    simp only [Except.ok.injEq, eq_comm (a := known), iff_and_self]
    intro _ entry he
    have := h entry.1 (List.mem_map_of_mem he)
    simpa using this

end EnvelopeWire.Toml
