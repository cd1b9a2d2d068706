import EnvelopeWire.Proofs.Reading.Faithful
import EnvelopeWire.Proofs.Reading.Forward
import EnvelopeWire.Proofs.Reading.MachineEnvelope
import EnvelopeWire.Proofs.Reading.Query

/-!
# Chains of reads

Everything that a program can do with bytes that it reads is a `ReadCall`: from bytes it gets to a
table or an envelope, from there to vtables, records and contents, and from all of these to numbers
and texts. Each call starts from one thing, and what it gives depends on that thing only, so a
program that makes calls in any order makes for each thing that it has a `Chain` of calls that led
there from the bytes.

A chain is run by the plain reader, or by the one in machine words, which might trap and does not,
whatever the bytes are.

* `ReadCall.holds_run`, `Chain.holds_run`: a property that reads keep holds of what they give.
* `ReadCall.follows`: a call on something sound does not trap, and gives something sound.
* `Chain.follows`: nor does a chain of calls.
-/

namespace EnvelopeWire

/-! ### Things that a program has -/

namespace RecordType

/-- The records of a type. -/
@[reducible]
def Value : RecordType → Type
  | table => Table
  | destination => Destination
  | errorContent => ErrorContent
  | envelope => Envelope

instance record : (type : RecordType) → Record type.Value
  | table => inferInstanceAs (Record Table)
  | destination => inferInstanceAs (Record Destination)
  | errorContent => inferInstanceAs (Record ErrorContent)
  | envelope => inferInstanceAs (Record Envelope)

/-- The table that is viewed as a record. -/
def tableOf : (type : RecordType) → type.Value → Table
  | table, t => t
  | destination, d => d.table
  | errorContent, e => e.table
  | envelope, e => e.table

/-- A table viewed as a record, in machine words. -/
def view : (type : RecordType) → Table → Machine WireError type.Value
  | table, t => return t
  | destination, t => Machine.viewDestination t
  | errorContent, t => Machine.viewErrorContent t
  | envelope, t => Machine.viewEnvelope t

end RecordType

/-- What a call gives that no further calls are made on. -/
inductive Datum
  | number (n : Nat)
  | flag (b : Bool)
  | scalar (type : ScalarType) (value : type.Value)
  | text (text : String)
  | bytes (bytes : Bytes)
  | slots (slots : List (UInt16 × UInt16))
  | kind (kind : DestinationKind)
  | report (report : Report)

/-- The kinds of things that a program has. -/
inductive Kind
  | bytes
  | record (type : RecordType)
  | vtable
  | content
  | datum

/-- The things of a kind. -/
@[reducible]
def Kind.Value : Kind → Type
  | bytes => Bytes
  | record type => type.Value
  | vtable => VTable
  | content => Content
  | datum => Datum

/-! ### Calls -/

/-- A call on a thing of one kind that gives a thing of another. Positions are 64-bit words. -/
inductive ReadCall : Kind → Kind → Type
  | readScalar (type : ScalarType) (position : UInt64) : ReadCall .bytes .datum
  | rootTable : ReadCall .bytes (.record .table)
  | tableAt (position : UInt64) : ReadCall .bytes (.record .table)
  | wrap : ReadCall .bytes (.record .envelope)
  | inspect : ReadCall .bytes .datum
  | tableOf (type : RecordType) : ReadCall (.record type) (.record .table)
  | buffer : ReadCall (.record .table) .bytes
  | position : ReadCall (.record .table) .datum
  | viewAs (type : RecordType) : ReadCall (.record .table) (.record type)
  | vtable : ReadCall (.record .table) .vtable
  | get (type : ScalarType) (slot : UInt16) (default : type.Value) :
    ReadCall (.record .table) .datum
  | getTable (slot : UInt16) : ReadCall (.record .table) (.record .table)
  | getRecord (type : RecordType) (slot : UInt16) : ReadCall (.record .table) (.record type)
  | getString (slot : UInt16) : ReadCall (.record .table) .datum
  | getBytes (slot : UInt16) : ReadCall (.record .table) .datum
  | vtablePosition : ReadCall .vtable .datum
  | vtableLength : ReadCall .vtable .datum
  | objectLength : ReadCall .vtable .datum
  | slotCount : ReadCall .vtable .datum
  | isEmpty : ReadCall .vtable .datum
  | fieldOffset (slot : UInt16) : ReadCall .vtable .datum
  | presentSlots : ReadCall .vtable .datum
  | kindByte : ReadCall (.record .destination) .datum
  | kind : ReadCall (.record .destination) .datum
  | target : ReadCall (.record .destination) .datum
  | code : ReadCall (.record .errorContent) .datum
  | category : ReadCall (.record .errorContent) .datum
  | reason : ReadCall (.record .errorContent) .datum
  | destination : ReadCall (.record .envelope) (.record .destination)
  | contentType : ReadCall (.record .envelope) .datum
  | id : ReadCall (.record .envelope) .datum
  | contentAs (type : RecordType) : ReadCall (.record .envelope) (.record type)
  | content : ReadCall (.record .envelope) .content
  | contentTag : ReadCall .content .datum
  | contentError : ReadCall .content (.record .errorContent)
  | contentTable : ReadCall .content (.record .table)

/-- The error that a content stands for. -/
def Content.error? : Content → Option ErrorContent
  | .error e => some e
  | _ => Option.none

/-- The table of a content whose tag has no meaning of its own. -/
def Content.other? : Content → Option Table
  | .other _ t => some t
  | _ => Option.none

namespace ReadCall

/-- What a call gives, or nothing where that is absent. -/
def run : {k l : Kind} → ReadCall k l → k.Value → Except EnvelopeError (Option l.Value)
  | _, _, readScalar type i, b =>
    (Envelope.checked (EnvelopeWire.readScalar type b i.toNat)).map (some ∘ .scalar type)
  | _, _, rootTable, b => (Envelope.checked (EnvelopeWire.rootTable b)).map some
  | _, _, tableAt i, b => (Envelope.checked (Table.ofPosition b i.toNat)).map some
  | _, _, wrap, b => (Envelope.checked (Envelope.ofBuffer b)).map some
  | _, _, inspect, b => (Report.ofBuffer b).map (some ∘ .report)
  | _, _, tableOf type, r => .ok (some (type.tableOf r))
  | _, _, buffer, t => .ok (some t.buffer)
  | _, _, position, t => .ok (some (.number t.position))
  | _, _, viewAs type, t =>
    (Envelope.checked (Record.ofTable t : Except WireError type.Value)).map some
  | _, _, vtable, t => (Envelope.checked t.vtable).map some
  | _, _, get type slot default, t =>
    (Envelope.checked (t.get type slot default)).map (some ∘ .scalar type)
  | _, _, getTable slot, t => Envelope.checked (t.getTable slot)
  | _, _, getRecord type slot, t => Envelope.checked (t.getRecord type.Value slot)
  | _, _, getString slot, t => (Envelope.checked (t.getString slot)).map (Option.map .text)
  | _, _, getBytes slot, t => (Envelope.checked (t.getBytes slot)).map (Option.map .bytes)
  | _, _, vtablePosition, v => .ok (some (.number v.position))
  | _, _, vtableLength, v => .ok (some (.number v.length))
  | _, _, objectLength, v => .ok (some (.number v.objectLength))
  | _, _, slotCount, v => .ok (some (.number v.slotCount))
  | _, _, isEmpty, v => .ok (some (.flag v.isEmpty))
  | _, _, fieldOffset slot, v => .ok (some (.scalar .u16 (v.fieldOffset slot)))
  | _, _, presentSlots, v => .ok (some (.slots v.presentSlots))
  | _, _, kindByte, d => .ok (some (.scalar .u8 d.kindByte))
  | _, _, kind, d => .ok (d.kind.map .kind)
  | _, _, target, d => .ok (d.target.map .text)
  | _, _, code, e => .ok (some (.scalar .u16 e.code))
  | _, _, category, e => .ok (e.category.map .text)
  | _, _, reason, e => .ok (e.reason.map .text)
  | _, _, destination, e => .ok e.destination
  | _, _, contentType, e => .ok (some (.scalar .u8 e.contentType))
  | _, _, id, e => .ok (some (.scalar .i32 e.id))
  | _, _, contentAs type, e => Envelope.checked (e.contentAs type.Value)
  | _, _, content, e => e.content.map some
  | _, _, contentTag, c => .ok (some (.scalar .u8 c.tag))
  | _, _, contentError, c => .ok c.error?
  | _, _, contentTable, c => .ok c.other?

/-- What a call gives in machine words, where it may trap. -/
def runMachine : {k l : Kind} → ReadCall k l → k.Value → Machine EnvelopeError (Option l.Value)
  | _, _, readScalar type i, b => do
    return some (.scalar type (← Machine.checked (Machine.readScalar type b i.toNat)))
  | _, _, rootTable, b => do return some (← Machine.checked (Machine.rootTable b))
  | _, _, tableAt i, b => do return some (← Machine.checked (Machine.ofPosition b i.toNat))
  | _, _, wrap, b => do return some (← Machine.checked (Machine.wrap b))
  | _, _, inspect, b => do return some (.report (← Machine.report b))
  | _, _, tableOf type, r => return some (type.tableOf r)
  | _, _, buffer, t => return some t.buffer
  | _, _, position, t => return some (.number t.position)
  | _, _, viewAs type, t => do return some (← Machine.checked (type.view t))
  | _, _, vtable, t => do return some (← Machine.checked (Machine.vtable t))
  | _, _, get type slot default, t => do
    return some (.scalar type (← Machine.checked (Machine.get t type slot default)))
  | _, _, getTable slot, t => Machine.checked (Machine.getTable t slot)
  | _, _, getRecord type slot, t => Machine.checked (Machine.getRecord type.view t slot)
  | _, _, getString slot, t => do
    return (← Machine.checked (Machine.getString t slot)).map .text
  | _, _, getBytes slot, t => do return (← Machine.checked (Machine.getBytes t slot)).map .bytes
  | _, _, vtablePosition, v => return some (.number v.position)
  | _, _, vtableLength, v => return some (.number v.length)
  | _, _, objectLength, v => do return some (.number (← Machine.objectLength v))
  | _, _, slotCount, v => do return some (.number (← Machine.slotCount v))
  | _, _, isEmpty, v => do return some (.flag (← Machine.isEmpty v))
  | _, _, fieldOffset slot, v => do return some (.scalar .u16 (← Machine.fieldOffset v slot))
  | _, _, presentSlots, v => do return some (.slots (← Machine.presentSlots v))
  | _, _, kindByte, d => do return some (.scalar .u8 (← Machine.kindByte d))
  | _, _, kind, d => do return (← Machine.kind d).map .kind
  | _, _, target, d => do return (← Machine.target d).map .text
  | _, _, code, e => do return some (.scalar .u16 (← Machine.code e))
  | _, _, category, e => do return (← Machine.category e).map .text
  | _, _, reason, e => do return (← Machine.reason e).map .text
  | _, _, destination, e => Machine.destination e
  | _, _, contentType, e => do return some (.scalar .u8 (← Machine.contentType e))
  | _, _, id, e => do return some (.scalar .i32 (← Machine.id e))
  | _, _, contentAs type, e => Machine.checked (Machine.getRecord type.view e.table 2)
  | _, _, content, e => do return some (← Machine.content e)
  | _, _, contentTag, c => return some (.scalar .u8 c.tag)
  | _, _, contentError, c => return c.error?
  | _, _, contentTable, c => return c.other?

end ReadCall

/-! ### Chains -/

/-- A sequence of calls, each on what the one before it gives. -/
inductive Chain : Kind → Kind → Type
  | nil {k : Kind} : Chain k k
  | cons {k l m : Kind} (call : ReadCall k l) (rest : Chain l m) : Chain k m

namespace Chain

/-- What a sequence of calls gives, or nothing where something on the way is absent. -/
def run : {k l : Kind} → Chain k l → k.Value → Except EnvelopeError (Option l.Value)
  | _, _, nil, a => .ok (some a)
  | _, _, cons call rest, a => do
    match ← call.run a with
    | none => return none
    | some b => rest.run b

/-- What a sequence of calls gives in machine words, where it may trap. -/
def runMachine : {k l : Kind} → Chain k l → k.Value → Machine EnvelopeError (Option l.Value)
  | _, _, nil, a => return some a
  | _, _, cons call rest, a => do
    match ← call.runMachine a with
    | none => return none
    | some b => rest.runMachine b

end Chain

/-! ### What reads keep -/

/-- A record is a view of the table that it was made of. -/
theorem RecordType.tableOf_ofTable (type : RecordType) {t : Table} {r : type.Value}
    (h : Record.ofTable t = .ok r) : type.tableOf r = t := by
  cases type with
  | table => exact (Except.ok.inj h).symm
  | destination => exact Machine.table_of_destination h
  | errorContent => exact Machine.table_of_errorContent h
  | envelope => exact Machine.table_of_envelope h

theorem map_some_eq_ok_iff {ε α : Type} {x : Except ε α} {a : α} :
    x.map some = .ok (some a) ↔ x = .ok a := by
  rw [map_eq_ok_iff]
  simp

/-- A property of bytes, tables and vtables that each of them passes on to what is read from it. -/
structure ReadInvariant where
  bytes : Bytes → Prop
  table : Table → Prop
  vtable : VTable → Prop
  bytes_buffer : ∀ t, table t → bytes t.buffer
  table_ofPosition : ∀ b p t, bytes b → Table.ofPosition b p = .ok t → table t
  vtable_vtable : ∀ t v, table t → t.vtable = .ok v → vtable v

namespace ReadInvariant

section Holds

variable (I : ReadInvariant)

/-- The table of a content, if it keeps one, has the property. -/
def HoldsOfContent : Content → Prop
  | .error e => I.table e.table
  | .other _ t => I.table t
  | .none | .noMessage | .success => True

/-- A thing has the property, as far as the property is about things of its kind. -/
def Holds : (k : Kind) → k.Value → Prop
  | .bytes, b => I.bytes b
  | .record type, r => I.table (type.tableOf r)
  | .vtable, v => I.vtable v
  | .content, c => I.HoldsOfContent c
  | .datum, _ => True

end Holds

variable {I : ReadInvariant} {t : Table} {slot : UInt16}

private theorem table_of_rootTable {b : Bytes} (hb : I.bytes b) (h : rootTable b = .ok t) :
    I.table t := by
  obtain ⟨-, hobject, rfl⟩ := rootTable_eq_ok_iff.mp h
  exact I.table_ofPosition b _ _ hb (Table.ofPosition_eq_ok_iff.mpr ⟨hobject, rfl⟩)

private theorem table_of_getTable {u : Table} (ht : I.table t)
    (h : t.getTable slot = .ok (some u)) :
    I.table u := by
  obtain ⟨p, -, hobject⟩ := Table.getWith_eq_some_iff.mp h
  exact I.table_ofPosition _ p u (I.bytes_buffer t ht) hobject

theorem table_of_getRecord (ht : I.table t) (type : RecordType) {r : type.Value}
    (h : t.getRecord type.Value slot = .ok (some r)) : I.table (type.tableOf r) := by
  obtain ⟨u, hu, hview⟩ := (Table.finds_of_getRecord h).2 r rfl
  rw [type.tableOf_ofTable hview]
  exact table_of_getTable ht hu

/-- What holds of the table of an envelope holds of its content. -/
private theorem holdsOfContent {e : Envelope} {c : Content} (ht : I.table e.table)
    (h : e.content = .ok c) : I.HoldsOfContent c := by
  obtain ⟨found, hfound, -⟩ := bind_eq_ok_iff.mp h
  have htable := checked_eq_ok_iff.mp hfound
  have hu : ∀ u, found = some u → I.table u := by
    rintro u rfl
    exact table_of_getRecord ht .table htable
  have hreads := Envelope.readsContent htable
  rw [h] at hreads
  cases hreads with
  | error _ hview =>
    rw [HoldsOfContent, Machine.table_of_errorContent hview]
    exact hu _ rfl
  | other => exact hu _ rfl
  | none | noMessage | success => trivial

end ReadInvariant

/-- **A call on something that has the property gives something that has it.** -/
theorem ReadCall.holds_run {I : ReadInvariant} {k l : Kind} {a : k.Value} {b : l.Value}
    (call : ReadCall k l) (ha : I.Holds k a) (h : call.run a = .ok (some b)) : I.Holds l b := by
  cases call with
  | rootTable =>
    exact ReadInvariant.table_of_rootTable ha (checked_eq_ok_iff.mp (map_some_eq_ok_iff.mp h))
  | tableAt i =>
    exact I.table_ofPosition _ _ _ ha (checked_eq_ok_iff.mp (map_some_eq_ok_iff.mp h))
  | wrap =>
    obtain ⟨t, ht, hview⟩ := bind_eq_ok_iff.mp (checked_eq_ok_iff.mp (map_some_eq_ok_iff.mp h))
    rw [ReadInvariant.Holds, RecordType.tableOf_ofTable .envelope hview]
    exact ReadInvariant.table_of_rootTable ha ht
  | tableOf type =>
    cases h
    exact ha
  | buffer =>
    cases h
    exact I.bytes_buffer a ha
  | viewAs type =>
    have hview := checked_eq_ok_iff.mp (map_some_eq_ok_iff.mp h)
    rw [ReadInvariant.Holds, type.tableOf_ofTable hview]
    exact ha
  | vtable => exact I.vtable_vtable a _ ha (checked_eq_ok_iff.mp (map_some_eq_ok_iff.mp h))
  | getTable slot => exact ReadInvariant.table_of_getTable ha (checked_eq_ok_iff.mp h)
  | getRecord type slot => exact ReadInvariant.table_of_getRecord ha type (checked_eq_ok_iff.mp h)
  | destination =>
    have hdestination : a.destination = some b := Except.ok.inj h
    rw [Envelope.destination, Option.join_eq_some_iff] at hdestination
    exact ReadInvariant.table_of_getRecord ha .destination (toOption_eq_some_iff.mp hdestination)
  | contentAs type => exact ReadInvariant.table_of_getRecord ha type (checked_eq_ok_iff.mp h)
  | content => exact ReadInvariant.holdsOfContent ha (map_some_eq_ok_iff.mp h)
  | contentError =>
    have herror : Content.error? a = some b := Except.ok.inj h
    cases a <;> cases herror
    exact ha
  | contentTable =>
    have hother : Content.other? a = some b := Except.ok.inj h
    cases a <;> cases hother
    exact ha
  | _ => trivial

/-- **What a chain of calls gives has every property that reads keep.** -/
theorem Chain.holds_run {I : ReadInvariant} {k l : Kind} {a : k.Value} {b : l.Value}
    (chain : Chain k l) (ha : I.Holds k a) (h : chain.run a = .ok (some b)) : I.Holds l b := by
  induction chain with
  | nil =>
    cases h
    exact ha
  | cons call rest ih =>
    obtain ⟨found, hfound, hrest⟩ := bind_eq_ok_iff.mp h
    cases found with
    | none => cases hrest
    | some c => exact ih (call.holds_run ha hfound) hrest

/-! ### Sound things -/

/-- What is known of the things that a program gets to: tables are in a buffer of no more than
`size` bytes, and vtables were checked. -/
def Kind.Sound (size : Nat) : (k : Kind) → k.Value → Prop
  | bytes, b => b.length ≤ size
  | record type, r => (type.tableOf r).buffer.length ≤ size
  | vtable, v => Machine.SoundVTable v
  | content, c => Machine.SoundContent size c
  | datum, _ => True

/-- Being sound is kept by reads. -/
private def ReadInvariant.sound (size : Nat) : ReadInvariant where
  bytes b := b.length ≤ size
  table t := t.buffer.length ≤ size
  vtable := Machine.SoundVTable
  bytes_buffer _ ht := ht
  table_ofPosition b p t hb h := by
    obtain ⟨-, rfl⟩ := Table.ofPosition_eq_ok_iff.mp h
    exact hb
  vtable_vtable _ _ _ hv := (Machine.soundVTable_of_vtable hv).1

/-- Soundness is an invariant of reads. -/
private theorem Kind.sound_iff {size : Nat} {k : Kind} {a : k.Value} :
    k.Sound size a ↔ (ReadInvariant.sound size).Holds k a := by
  cases k with
  | content => cases a <;> rfl
  | _ => rfl

private theorem RecordType.view_follows (type : RecordType) {size : Nat}
    (hsize : size < Machine.maxLength) {t : Table} (h : t.buffer.length ≤ size) :
    Machine.Follows (Machine.Huge size) (fun _ => true) (type.view t) (Record.ofTable t) := by
  cases type with
  | table => exact .of_eq rfl
  | destination => exact Machine.viewDestination_follows hsize h
  | errorContent => exact Machine.viewErrorContent_follows hsize h
  | envelope => exact Machine.viewEnvelope_follows hsize h

namespace ReadCall

variable {size : Nat} {k l : Kind} {a : k.Value} {b : l.Value}

/-- **A call on something sound gives something sound.** -/
theorem sound_run (call : ReadCall k l) (ha : k.Sound size a) (h : call.run a = .ok (some b)) :
    l.Sound size b :=
  Kind.sound_iff.mpr (call.holds_run (Kind.sound_iff.mp ha) h)

/-- **A call on something sound does not trap.** -/
theorem follows (call : ReadCall k l) (hsize : size < Machine.maxLength) (ha : k.Sound size a) :
    Machine.Follows (Machine.Huge size) EnvelopeError.isMalformed (call.runMachine a)
      (call.run a) := by
  cases call with
  | readScalar type i =>
    exact (Machine.Follows.of_eq
      (Machine.readScalar_eq (Nat.lt_of_le_of_lt ha hsize) type i.toNat)).checked.map
  | rootTable => exact (Machine.rootTable_follows hsize ha).checked.map
  | tableAt i => exact (Machine.ofPosition_follows hsize ha i.toNat).checked.map
  | wrap => exact (Machine.wrap_follows hsize ha).checked.map
  | inspect => exact (Machine.report_follows hsize ha).map
  | viewAs type => exact (type.view_follows hsize ha).checked.map
  | vtable => exact (Machine.vtable_follows hsize ha).checked.map
  | get type slot default => exact (Machine.get_follows hsize ha type slot default).checked.map
  | getTable slot => exact (Machine.getTable_follows hsize ha slot).checked
  | getRecord type slot =>
    exact (Machine.getRecord_follows hsize (fun _ => type.view_follows hsize) ha slot).checked
  | getString slot => exact (Machine.getString_follows hsize ha slot).checked.map
  | getBytes slot => exact (Machine.getBytes_follows hsize ha slot).checked.map
  | objectLength => exact .of_pure (Machine.objectLength_eq ha) _
  | slotCount => exact .of_pure (Machine.slotCount_eq ha) _
  | isEmpty => exact .of_pure (Machine.isEmpty_eq ha) _
  | fieldOffset slot => exact .of_pure (Machine.fieldOffset_eq a slot) _
  | presentSlots => exact .of_pure (Machine.presentSlots_eq ha) _
  | kindByte => exact .of_pure (Machine.kindByte_eq hsize ha) _
  | kind => exact .of_pure (Machine.kind_eq hsize ha) _
  | target => exact .of_pure (Machine.target_eq hsize ha) _
  | code => exact .of_pure (Machine.code_eq hsize ha) _
  | category => exact .of_pure (Machine.category_eq hsize ha) _
  | reason => exact .of_pure (Machine.reason_eq hsize ha) _
  | destination => exact .of_eq (Machine.destination_eq hsize ha)
  | contentType => exact .of_pure (Machine.contentType_eq hsize ha) _
  | id => exact .of_pure (Machine.id_eq hsize ha) _
  | contentAs type =>
    exact (Machine.getRecord_follows hsize (fun _ => type.view_follows hsize) ha 2).checked
  | content => exact (Machine.content_follows hsize ha).map
  -- The rest only takes a thing apart.
  | tableOf | buffer | position | vtablePosition | vtableLength | contentTag | contentError
  | contentTable => exact .of_eq rfl

end ReadCall

namespace Chain

variable {size : Nat} {k l : Kind}

/-- **A chain of calls does not trap**, and gives what it gives to the plain reader. -/
theorem follows (chain : Chain k l) (hsize : size < Machine.maxLength) {a : k.Value}
    (ha : k.Sound size a) :
    Machine.Follows (Machine.Huge size) EnvelopeError.isMalformed (chain.runMachine a)
      (chain.run a) := by
  induction chain with
  | nil => exact .of_eq rfl
  | cons call rest ih =>
    refine (call.follows hsize ha).bind fun found hfound => ?_
    cases found with
    | none => exact .of_eq rfl
    | some b => exact ih (call.sound_run ha hfound)

/-- **No chain of reads of any bytes traps**, so that it always ends with what it reads or with an
error. It ends as it does for the plain reader; only in bytes within `2 ^ 31` of the longest that
there can be, it may find them malformed for another reason. -/
theorem never_traps (b : Bytes) (hb : b.length < Machine.maxLength) (chain : Chain .bytes k) :
    ∃ outcome, (chain.runMachine b).run = .ok outcome ∧
      (outcome = chain.run b ∨
        Machine.Huge b.length ∧ ∃ e e', outcome = .error e ∧ chain.run b = .error e' ∧
          e.isMalformed = true ∧ e'.isMalformed = true) := by
  have hsound : Kind.Sound b.length .bytes b := Nat.le_refl _
  obtain ⟨outcome, hrun, halike⟩ := chain.follows hb hsound
  refine ⟨outcome, congrArg ExceptT.run hrun, ?_⟩
  generalize chain.run b = plain at halike ⊢
  cases halike with
  | same => exact .inl rfl
  | malformed hhuge he he' => exact .inr ⟨hhuge, _, _, rfl, rfl, he, he'⟩

/-- The number of the envelope in `Envelope.toTopic`, in machine words. -/
theorem never_traps_toTopic :
    Envelope.toTopic.length < Machine.maxLength ∧ ¬ Machine.Huge Envelope.toTopic.length ∧
      ((cons .wrap (cons .id nil)).runMachine Envelope.toTopic).run
        = .ok (.ok (some (.scalar .i32 (-7 : Int32)))) := by
  have hb : Envelope.toTopic.length < Machine.maxLength := by decide
  have hhuge : ¬ Machine.Huge Envelope.toTopic.length := by
    unfold Machine.Huge
    decide
  obtain ⟨e, he, hid⟩ := exists_ok_of_any (x := Envelope.ofBuffer Envelope.toTopic)
    (p := fun e => e.id == -7) (by decide +kernel)
  have hplain : (cons .wrap (cons .id nil)).run Envelope.toTopic
      = .ok (some (.scalar .i32 (-7 : Int32))) := by
    rw [run, ReadCall.run, he, ← eq_of_beq hid]
    rfl
  obtain ⟨outcome, hrun, hsame | ⟨habsurd, -⟩⟩ :=
    never_traps Envelope.toTopic hb (cons .wrap (cons .id nil))
  · exact ⟨hb, hhuge, by rw [hrun, hsame, hplain]⟩
  · exact absurd habsurd hhuge

end Chain

end EnvelopeWire
