import EnvelopeWire.Ensure
import EnvelopeWire.Proofs.Text.Parser
import EnvelopeWire.Toml.Document
import Mathlib.Data.List.Nodup

/-!
# No key comes up twice

Whatever a document says, no table in it has a key twice: not the document itself, not a table that
a header opens, not a table between braces, however deep. So it does not matter from which end a
table is searched, and what is found under a key is all that the document says of it.

* `Once.alter`, `keepsEntriesOnce_descend`: a table under construction keeps its keys apart.
* `gives_value`: so does every value that is parsed.
* `once_of_parse`: so it is in the whole document.
-/

namespace EnvelopeWire

namespace Toml

/-- No key comes up twice in `entries`, and each value has a property. -/
structure Once {α : Type} (Kept : α → Prop) (entries : List (String × α)) : Prop where
  nodup : (entries.map Prod.fst).Nodup
  kept : ∀ entry ∈ entries, Kept entry.2

section Entries

variable {α : Type} {Kept : α → Prop} {entries : List (String × α)} {key : String} {a : α}

private theorem once_nil : Once Kept [] := ⟨List.nodup_nil, List.forall_mem_nil _⟩

/-- What is found under a key is what is there. -/
theorem Once.lookup_eq_some_iff (h : Once Kept entries) :
    entries.lookup key = some a ↔ (key, a) ∈ entries := by
  obtain ⟨hnodup, -⟩ := h
  induction entries with
  | nil => simp
  | cons entry entries ih =>
    obtain ⟨name, value⟩ := entry
    obtain ⟨hfresh, hrest⟩ := List.nodup_cons.mp hnodup
    by_cases hname : key = name
    · subst hname
      have hother : (key, a) ∉ entries := fun hmem => hfresh (List.mem_map.mpr ⟨_, hmem, rfl⟩)
      simp [hother, eq_comm]
    · have hbeq : (key == name) = false := beq_eq_false_iff_ne.mpr hname
      simp [List.lookup_cons, hbeq, hname, ih hrest]

end Entries

/-- In no table of a value a key comes up twice. -/
inductive Value.KeysOnce : Value → Prop
  | string (s : String) : KeysOnce (.string s)
  | integer (n : Int) : KeysOnce (.integer n)
  | float (text : String) : KeysOnce (.float text)
  | boolean (b : Bool) : KeysOnce (.boolean b)
  | datetime (text : String) : KeysOnce (.datetime text)
  | array {items : List Value} (hitems : ∀ v ∈ items, KeysOnce v) : KeysOnce (.array items)
  | table {entries : Entries} (hnodup : (entries.map Prod.fst).Nodup)
    (hvalues : ∀ entry ∈ entries, KeysOnce entry.2) : KeysOnce (.table entries)

/-- In no table of a part of a document a key comes up twice. -/
inductive Node.KeysOnce : Node → Prop
  | value {v : Value} (hvalue : v.KeysOnce) : KeysOnce (.value v)
  | table {origin : Origin} {entries : Nodes} (hnodup : (entries.map Prod.fst).Nodup)
    (hnodes : ∀ entry ∈ entries, KeysOnce entry.2) : KeysOnce (.table origin entries)
  | tables {elements : List Nodes}
    (hnodup : ∀ entries ∈ elements, (entries.map Prod.fst).Nodup)
    (hnodes : ∀ entries ∈ elements, ∀ entry ∈ entries, KeysOnce entry.2) :
    KeysOnce (.tables elements)

private theorem Value.keysOnce_table_iff {entries : Entries} :
    (Value.table entries).KeysOnce ↔ Once Value.KeysOnce entries :=
  ⟨fun | .table hnodup hvalues => ⟨hnodup, hvalues⟩, fun h => .table h.nodup h.kept⟩

/-- In a table within a table no key comes up twice either. -/
theorem Once.of_mem_table {entries inner : Entries} {key : String}
    (h : Once Value.KeysOnce entries) (hmem : (key, .table inner) ∈ entries) :
    Once Value.KeysOnce inner :=
  Value.keysOnce_table_iff.mp (h.kept _ hmem)

private theorem Node.keysOnce_table_iff {origin : Origin} {entries : Nodes} :
    (Node.table origin entries).KeysOnce ↔ Once Node.KeysOnce entries :=
  ⟨fun | .table hnodup hnodes => ⟨hnodup, hnodes⟩, fun h => .table h.nodup h.kept⟩

private theorem Node.keysOnce_tables_iff {elements : List Nodes} :
    (Node.tables elements).KeysOnce ↔ ∀ entries ∈ elements, Once Node.KeysOnce entries :=
  ⟨fun | .tables hnodup hnodes => fun entries hmem => ⟨hnodup entries hmem, hnodes entries hmem⟩,
    fun h => .tables (fun entries hmem => (h entries hmem).nodup)
      fun entries hmem => (h entries hmem).kept⟩

/-! ### Tables under construction -/

section Construction

variable {entries entries' : Nodes} {key : String}

/-- A change of a node that keeps the keys of its tables apart. -/
def KeepsOnce (change : Option Node → Except Error Node) : Prop :=
  ∀ old new, (∀ node ∈ old, node.KeysOnce) → change old = .ok new → new.KeysOnce

/-- Only the key that is altered can be new. -/
private theorem key_of_alter {change : Option Node → Except Error Node}
    (halter : alter key change entries = .ok entries') {name : String}
    (hname : name ∈ entries'.map Prod.fst) : name ∈ entries.map Prod.fst ∨ name = key := by
  induction entries generalizing entries' with
  | nil =>
    obtain ⟨node, -, heq⟩ := bind_eq_ok_iff.mp halter
    cases heq
    exact .inr (List.mem_singleton.mp hname)
  | cons entry entries ih =>
    rw [alter] at halter
    split at halter
    · obtain ⟨node, -, heq⟩ := bind_eq_ok_iff.mp halter
      cases heq
      exact .inl hname
    · obtain ⟨rest, hrest, heq⟩ := bind_eq_ok_iff.mp halter
      cases heq
      rcases List.mem_cons.mp hname with rfl | hmem
      · exact .inl List.mem_cons_self
      · exact (ih hrest hmem).imp_left (List.mem_cons_of_mem _)

/-- **Altering an entry keeps the keys apart.** -/
theorem Once.alter {change : Option Node → Except Error Node} (h : Once Node.KeysOnce entries)
    (hchange : KeepsOnce change) (halter : alter key change entries = .ok entries') :
    Once Node.KeysOnce entries' := by
  induction entries generalizing entries' with
  | nil =>
    obtain ⟨node, hnode, heq⟩ := bind_eq_ok_iff.mp halter
    cases heq
    exact ⟨List.nodup_singleton _,
      List.forall_mem_singleton.mpr (hchange none node (by simp) hnode)⟩
  | cons entry entries ih =>
    obtain ⟨hfresh, hnodup⟩ := List.nodup_cons.mp h.nodup
    obtain ⟨hhead, hkept⟩ := List.forall_mem_cons.mp h.kept
    rw [Toml.alter] at halter
    split at halter
    case isTrue hkey =>
      obtain ⟨node, hnode, heq⟩ := bind_eq_ok_iff.mp halter
      cases heq
      have hnew := hchange _ node (by simpa using hhead) hnode
      exact ⟨h.nodup, List.forall_mem_cons.mpr ⟨hnew, hkept⟩⟩
    case isFalse hkey =>
      obtain ⟨rest, hrest, heq⟩ := bind_eq_ok_iff.mp halter
      cases heq
      obtain ⟨hnodup', hkept'⟩ := ih ⟨hnodup, hkept⟩ hrest
      have hnew : entry.1 ∉ rest.map Prod.fst := fun hmem =>
        (key_of_alter hrest hmem).elim hfresh hkey
      exact ⟨List.nodup_cons.mpr ⟨hnew, hnodup'⟩, List.forall_mem_cons.mpr ⟨hhead, hkept'⟩⟩

/-- A change of a table that keeps its keys apart, and those of the tables in it. -/
def KeepsEntriesOnce (change : Origin → Nodes → Except Error Nodes) : Prop :=
  ∀ origin entries entries', Once Node.KeysOnce entries → change origin entries = .ok entries' →
    Once Node.KeysOnce entries'

/-- **Changing a table at the end of a path keeps the keys apart** in all tables. -/
theorem keepsEntriesOnce_descend {dotted : Bool} {change : Origin → Nodes → Except Error Nodes}
    (hchange : KeepsEntriesOnce change) (path : List String) :
    KeepsEntriesOnce (descend dotted change path) := by
  induction path with
  | nil => exact hchange
  | cons key path ih =>
    intro origin entries entries' h hdescend
    refine h.alter (fun old new hold hnew => ?_) hdescend
    split at hnew
    -- The table is missing and added, or it is there, or it is the last one of an array.
    case h_1 =>
      obtain ⟨inner, hinner, heq⟩ := bind_eq_ok_iff.mp hnew
      cases heq
      exact Node.keysOnce_table_iff.mpr (ih _ _ _ once_nil hinner)
    case h_2 =>
      split at hnew
      · cases hnew
      · obtain ⟨inner, hinner, heq⟩ := bind_eq_ok_iff.mp hnew
        cases heq
        have hbefore := Node.keysOnce_table_iff.mp (hold _ rfl)
        exact Node.keysOnce_table_iff.mpr (ih _ _ _ hbefore hinner)
    case h_3 =>
      obtain ⟨last, hlast, heq⟩ := bind_eq_ok_iff.mp hnew
      cases heq
      obtain ⟨hbefore, hearlier⟩ :=
        List.forall_mem_cons.mp (Node.keysOnce_tables_iff.mp (hold _ rfl))
      exact Node.keysOnce_tables_iff.mpr
        (List.forall_mem_cons.mpr ⟨ih _ _ _ hbefore hlast, hearlier⟩)
    case h_4 => cases hnew
    case h_5 => cases hnew

/-- A value that is set under a key of several parts opens tables on its way, or finds them. -/
private theorem once_of_setPair {key : Key} {v : Value} (h : Once Node.KeysOnce entries)
    (hv : v.KeysOnce) (hset : setPair key v entries = .ok entries') :
    Once Node.KeysOnce entries' := by
  refine keepsEntriesOnce_descend (fun origin inner inner' hinner hchange => ?_) _ _ _ _ h hset
  split at hchange
  · cases hchange
  · refine hinner.alter (fun old new hold hnew => ?_) hchange
    split at hnew <;> cases hnew
    exact .value hv

/-- A table that is opened is a new one, or one that was only implied. -/
private theorem once_of_openTable {key : Key} (h : Once Node.KeysOnce entries)
    (hopen : openTable key entries = .ok entries') : Once Node.KeysOnce entries' := by
  refine keepsEntriesOnce_descend (fun origin inner inner' hinner hchange => ?_) _ _ _ _ h hopen
  refine hinner.alter (fun old new hold hnew => ?_) hchange
  split at hnew <;> cases hnew
  · exact Node.keysOnce_table_iff.mpr once_nil
  · exact Node.keysOnce_table_iff.mpr (Node.keysOnce_table_iff.mp (hold _ rfl))

/-- An element that is opened is one more of its tables. -/
private theorem once_of_openElement {key : Key} (h : Once Node.KeysOnce entries)
    (hopen : openElement key entries = .ok entries') : Once Node.KeysOnce entries' := by
  refine keepsEntriesOnce_descend (fun origin inner inner' hinner hchange => ?_) _ _ _ _ h hopen
  refine hinner.alter (fun old new hold hnew => ?_) hchange
  split at hnew <;> cases hnew
  · exact Node.keysOnce_tables_iff.mpr (List.forall_mem_singleton.mpr once_nil)
  · exact Node.keysOnce_tables_iff.mpr
      (List.forall_mem_cons.mpr ⟨once_nil, Node.keysOnce_tables_iff.mp (hold _ rfl)⟩)

/-- In no table of the value of a pair a key comes up twice. -/
def Statement.KeysOnce : Statement → Prop
  | .pair _ v => v.KeysOnce
  | .header _ | .arrayHeader _ => True

/-- **Statements keep the keys apart.** -/
theorem once_of_assemble {statements : List Statement} {current : List String}
    (hstatements : ∀ s ∈ statements, s.KeysOnce) (h : Once Node.KeysOnce entries)
    (hassemble : assemble current entries statements = .ok entries') :
    Once Node.KeysOnce entries' := by
  induction statements generalizing current entries with
  | nil =>
    cases hassemble
    exact h
  | cons s statements ih =>
    obtain ⟨hs, hrest⟩ := List.forall_mem_cons.mp hstatements
    cases s with
    | pair key v =>
      obtain ⟨next, hnext, hafter⟩ := bind_eq_ok_iff.mp hassemble
      have hchange : KeepsEntriesOnce fun _ inner => setPair key v inner :=
        fun _ _ _ hinner hset => once_of_setPair hinner hs hset
      exact ih hrest (keepsEntriesOnce_descend hchange _ _ _ _ h hnext) hafter
    | header key =>
      obtain ⟨next, hnext, hafter⟩ := bind_eq_ok_iff.mp hassemble
      exact ih hrest (once_of_openTable h hnext) hafter
    | arrayHeader key =>
      obtain ⟨next, hnext, hafter⟩ := bind_eq_ok_iff.mp hassemble
      exact ih hrest (once_of_openElement h hnext) hafter

end Construction

/-! ### Tables that are complete -/

/-- A finished table has the keys that it had while it was made. -/
private theorem keys_toEntries (entries : Nodes) :
    (toEntries entries).map Prod.fst = entries.map Prod.fst := by
  induction entries with
  | nil => rfl
  | cons entry entries ih => exact congrArg (entry.1 :: ·) ih

mutual

theorem Node.KeysOnce.toValue : ∀ {node : Node}, node.KeysOnce → node.toValue.KeysOnce
  | .value _, .value hvalue => hvalue
  | .table _ _, .table hnodup hnodes =>
    .table (by rwa [keys_toEntries]) (values_toEntries hnodes)
  | .tables _, .tables hnodup hnodes =>
    .array fun v hv => values_toTables hnodup hnodes v (List.mem_reverse.mp hv)

private theorem values_toEntries : ∀ {entries : Nodes}, (∀ entry ∈ entries, entry.2.KeysOnce) →
    ∀ entry ∈ toEntries entries, entry.2.KeysOnce
  | [], _ => List.forall_mem_nil _
  | (_, _) :: _, h =>
    List.forall_mem_cons.mpr ⟨(h _ List.mem_cons_self).toValue,
      values_toEntries fun entry hentry => h entry (List.mem_cons_of_mem _ hentry)⟩

/-- The elements of a list of tables, by induction together with what is in them. -/
theorem values_toTables : ∀ {elements : List Nodes},
    (∀ entries ∈ elements, (entries.map Prod.fst).Nodup) →
    (∀ entries ∈ elements, ∀ entry ∈ entries, Node.KeysOnce entry.2) →
    ∀ v ∈ toTables elements, v.KeysOnce
  | [], _, _ => List.forall_mem_nil _
  | _ :: _, hnodup, hnodes =>
    List.forall_mem_cons.mpr
      ⟨.table (by rw [keys_toEntries]; exact hnodup _ List.mem_cons_self)
        (values_toEntries (hnodes _ List.mem_cons_self)),
      values_toTables (fun entries hmem => hnodup _ (List.mem_cons_of_mem _ hmem))
        fun entries hmem => hnodes _ (List.mem_cons_of_mem _ hmem)⟩

end

private theorem Once.toEntries {entries : Nodes} (h : Once Node.KeysOnce entries) :
    Once Value.KeysOnce (toEntries entries) :=
  ⟨by rw [keys_toEntries]; exact h.nodup, values_toEntries h.kept⟩

/-- A document has each key once in each of its tables, statement by statement. -/
private theorem once_of_ofStatements {statements : List Statement} {entries : Entries}
    (hstatements : ∀ s ∈ statements, s.KeysOnce)
    (h : Entries.ofStatements statements = .ok entries) : Once Value.KeysOnce entries := by
  obtain ⟨nodes, hnodes, heq⟩ := bind_eq_ok_iff.mp h
  cases heq
  exact (once_of_assemble hstatements once_nil hnodes).toEntries

private theorem once_of_foldlM {pairs : List (Key × Value)} {nodes nodes' : Nodes}
    (hpairs : ∀ p ∈ pairs, p.2.KeysOnce) (h : Once Node.KeysOnce nodes)
    (hfold : pairs.foldlM (fun entries pair => setPair pair.1 pair.2 entries) nodes = .ok nodes') :
    Once Node.KeysOnce nodes' := by
  induction pairs generalizing nodes with
  | nil =>
    cases hfold
    exact h
  | cons p pairs ih =>
    obtain ⟨hp, hrest⟩ := List.forall_mem_cons.mp hpairs
    obtain ⟨next, hnext, hafter⟩ := bind_eq_ok_iff.mp hfold
    exact ih hrest (once_of_setPair h hp hnext) hafter

private theorem once_of_ofPairs {pairs : List (Key × Value)} {entries : Entries}
    (hpairs : ∀ p ∈ pairs, p.2.KeysOnce) (h : Entries.ofPairs pairs = .ok entries) :
    Once Value.KeysOnce entries := by
  obtain ⟨nodes, hnodes, heq⟩ := bind_eq_ok_iff.mp h
  cases heq
  exact (once_of_foldlM hpairs once_nil hnodes).toEntries

/-! ### Values that are parsed -/

private theorem gives_scalar : scalar.Gives Value.KeysOnce :=
  .orElse (.bind .trivial fun s _ => .pure (.string s)) <|
  .orElse (.bind .trivial fun text _ => .pure (.datetime text)) <|
  .orElse (.bind .trivial fun text _ => .pure (.float text)) <|
  .orElse (.bind .trivial fun n _ => .pure (.integer n))
    (.bind .trivial fun b _ => .pure (.boolean b))

section Item

variable {item : Parser Value} (hitem : item.Gives Value.KeysOnce)

include hitem

private theorem gives_array : (array item).Gives fun items => ∀ v ∈ items, v.KeysOnce := by
  have hone : (trivia *> item <* trivia).Gives Value.KeysOnce := .before (.after hitem)
  refine .after (.bind (.optional (.bind hone.sepBy1 fun items h => .after (.pure h)))
    fun found h => .after (.after (.pure ?_)))
  cases found with
  | none => exact List.forall_mem_nil _
  | some items => exact h items rfl

private theorem gives_pair : (pair item).Gives fun p => p.2.KeysOnce :=
  .bind .trivial fun _ _ => .after (.after (hitem.bind fun _ hv => .pure hv))

/-- A table in a line is made of its pairs, each of which is set in turn. -/
private theorem gives_inlineTable : (inlineTable item).Gives (Once Value.KeysOnce) := by
  have hone : (pair item <* blanks).Gives fun p => p.2.KeysOnce := .before (gives_pair hitem)
  refine .after ((Parser.Gives.sepBy hone).bind fun pairs hpairs => .after (.after ?_))
  split
  · exact .pure (once_of_ofPairs hpairs ‹_›)
  · exact .failure

end Item

/-- **In no value that is parsed a key comes up twice.** -/
theorem gives_value (depth : Nat) : (value depth).Gives Value.KeysOnce := by
  induction depth with
  | zero => exact gives_scalar
  | succ depth ih =>
    have harray := (gives_array ih).bind fun items h => .pure (Value.KeysOnce.array h)
    have htable := (gives_inlineTable ih).bind fun entries h =>
      .pure (Value.keysOnce_table_iff.mpr h)
    exact .orElse gives_scalar (.orElse harray htable)

/-! ### Documents -/

private theorem gives_header : header.Gives Statement.KeysOnce :=
  .orElse (.after (.bind .trivial fun _ _ => .after (.pure True.intro)))
    (.after (.bind .trivial fun _ _ => .after (.pure True.intro)))

private theorem gives_statement : statement.Gives Statement.KeysOnce :=
  .orElse gives_header (.bind (gives_pair (gives_value maxDepth)) fun _ hv => .pure hv)

private theorem gives_line : line.Gives fun found => ∀ s ∈ found, Statement.KeysOnce s :=
  .after (.after (.bind gives_statement.optional fun _ h => .after (.pure h)))

private theorem gives_document : document.Gives fun statements => ∀ s ∈ statements, s.KeysOnce := by
  refine .after (.bind gives_line.many fun lines h => .after (.pure fun s hs => ?_))
  obtain ⟨found, hfound, heq⟩ := List.mem_filterMap.mp hs
  exact h found hfound s heq

/-- **In no table of a document a key comes up twice.** -/
theorem once_of_parse {text : String} {entries : Entries} (h : parse text = .ok entries) :
    Once Value.KeysOnce entries := by
  rw [parse] at h
  split at h
  case h_1 statements rest hdocument =>
    exact once_of_ofStatements (gives_document _ _ _ hdocument) h
  case h_2 => cases h

end Toml

end EnvelopeWire
