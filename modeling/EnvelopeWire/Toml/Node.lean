import EnvelopeWire.Toml.Value

/-!
# Putting a document together

The statements of a document build up one table: a pair sets a key, a header opens a table, a
double header appends a table to an array. Tables also come into being along the way, and what
may be done to a table later depends on how it came into being, its `Origin`:

* a table from a header cannot be opened again, nor extended by a dotted key from outside;
* a table that was only implied by a longer header can still be opened, once;
* a table from a dotted key can be extended by dotted keys, but never opened.
-/

namespace EnvelopeWire.Toml

/-- A possibly dotted key: the tables it goes through, and the key in the last of them. -/
structure Key where
  path : List String
  name : String
deriving DecidableEq, Repr

/-- A statement of a document. -/
inductive Statement
  | pair (key : Key) (value : Value)
  | header (key : Key)
  | arrayHeader (key : Key)

/-- How a table came into being. -/
inductive Origin
  | header
  | implied
  | dottedKey
deriving DecidableEq, Repr

/-- A part of a document under construction. -/
inductive Node
  | value (value : Value)
  | table (origin : Origin) (entries : List (String × Node))
  /-- The elements of an array of tables, last one first. -/
  | tables (elements : List (List (String × Node)))

/-- The entries of a table under construction. -/
abbrev Nodes := List (String × Node)

/-- Changes the entry for `key`, or adds one, as `change` says. -/
def alter (key : String) (change : Option Node → Except Error Node) :
    Nodes → Except Error Nodes
  | [] => do return [(key, ← change none)]
  | (k, node) :: rest => do
    if k = key then
      return (k, ← change (some node)) :: rest
    else
      return (k, node) :: (← alter key change rest)

/-- Changes the table at the end of `path`, starting from a table of the given origin. Tables that
are missing on the way are added. An array of tables is entered at its last element. With
`dotted`, the path is that of a dotted key and may not go through a table from a header. -/
def descend (dotted : Bool) (change : Origin → Nodes → Except Error Nodes) :
    List String → Origin → Nodes → Except Error Nodes
  | [], origin, entries => change origin entries
  | key :: path, _, entries =>
    alter key
      (fun
        | none => do
          let origin : Origin := if dotted then .dottedKey else .implied
          return .table origin (← descend dotted change path origin [])
        | some (.table origin inner) =>
          if dotted ∧ origin = .header then .error (.conflict key)
          else do return .table origin (← descend dotted change path origin inner)
        | some (.tables (last :: earlier)) => do
          return .tables ((← descend dotted change path .header last) :: earlier)
        | some (.tables []) => .error (.conflict key)
        | some (.value _) => .error (.conflict key))
      entries

/-- Sets a key that is not set yet. A dotted key has to end in a table made by dotted keys. -/
def setPair (key : Key) (value : Value) (entries : Nodes) : Except Error Nodes :=
  descend true
    (fun origin inner =>
      if key.path ≠ [] ∧ origin ≠ .dottedKey then .error (.conflict key.name)
      else
        alter key.name
          (fun
            | none => .ok (.value value)
            | some _ => .error (.conflict key.name))
          inner)
    key.path .header entries

/-- Opens the table `key`, which must be new or so far only implied. -/
def openTable (key : Key) (entries : Nodes) : Except Error Nodes :=
  descend false
    (fun _ inner =>
      alter key.name
        (fun
          | none => .ok (.table .header [])
          | some (.table .implied inner) => .ok (.table .header inner)
          | some _ => .error (.conflict key.name))
        inner)
    key.path .header entries

/-- Appends an empty table to the array of tables `key`. -/
def openElement (key : Key) (entries : Nodes) : Except Error Nodes :=
  descend false
    (fun _ inner =>
      alter key.name
        (fun
          | none => .ok (.tables [[]])
          | some (.tables elements) => .ok (.tables ([] :: elements))
          | some _ => .error (.conflict key.name))
        inner)
    key.path .header entries

/-- Adds the statements to `entries`; `current` is the path of the table opened last. -/
def assemble (current : List String) (entries : Nodes) :
    List Statement → Except Error Nodes
  | [] => .ok entries
  | .pair key value :: rest => do
    let entries ←
      descend false (fun _ inner => setPair key value inner) current .header entries
    assemble current entries rest
  | .header key :: rest => do
    assemble (key.path ++ [key.name]) (← openTable key entries) rest
  | .arrayHeader key :: rest => do
    assemble (key.path ++ [key.name]) (← openElement key entries) rest

mutual

/-- What a part of a document says. -/
def Node.toValue : Node → Value
  | .value value => value
  | .table _ entries => .table (toEntries entries)
  | .tables elements => .array (toTables elements).reverse

/-- What the entries of a table say. -/
def toEntries : List (String × Node) → List (String × Value)
  | [] => []
  | (key, node) :: rest => (key, node.toValue) :: toEntries rest

/-- What the elements of an array of tables say. -/
def toTables : List (List (String × Node)) → List Value
  | [] => []
  | entries :: rest => .table (toEntries entries) :: toTables rest

end

/-- The table that the statements of a document make up. -/
def Entries.ofStatements (statements : List Statement) : Except Error Entries := do
  return toEntries (← assemble [] [] statements)

/-- The table that the pairs of an inline table make up. -/
def Entries.ofPairs (pairs : List (Key × Value)) : Except Error Entries := do
  return toEntries (← pairs.foldlM (fun entries pair => setPair pair.1 pair.2 entries) [])

end EnvelopeWire.Toml
