import EnvelopeWire.Proofs.Reading.Chain

/-!
# Reading a buffer behind other bytes

A buffer is written back to front, so what was built earlier ends up behind whatever is built later.
A reader finds it there unchanged: where bytes are put in front of a buffer, every read that goes
through without them goes through, and gives the same, with all positions further back by as many
bytes as were put in front. All that is stored in a buffer to lead from one place to another is a
distance, signed for vtables, so it does not matter where the buffer starts.

The converse fails. A reference to a vtable may lead to before the front of a buffer, and a longer
buffer may have a vtable there.

* `Relocates`: what a read that goes through gives behind other bytes.
* `Table.relocates_vtable`, `Table.relocates_get`, `Table.relocates_getWith`: the reads of a table.
* `ReadCall.relocates_run`: one call on a thing that was read.
* `Chain.relocates`: any number of calls, from a table at any position.
-/

namespace EnvelopeWire

/-! ### Reads that go through -/

/-- Where `x` gives a result, `y` gives that result with `f` applied to it. -/
def Relocates {ε α β : Type} (f : α → β) (x : Except ε α) (y : Except ε β) : Prop :=
  ∀ a, x = .ok a → y = .ok (f a)

namespace Relocates

variable {ε α β γ δ : Type} {f : α → β} {g : γ → δ} {x : Except ε α} {y : Except ε β}

private theorem ok {a : α} {b : β} (h : b = f a) :
    Relocates f (.ok a : Except ε α) (.ok b : Except ε β) := by
  rintro _ ⟨⟩
  exact congrArg Except.ok h

private theorem bind {k : α → Except ε γ} {l : β → Except ε δ} (hx : Relocates f x y)
    (hk : ∀ a, x = .ok a → Relocates g (k a) (l (f a))) :
    Relocates g (x >>= k) (y >>= l) := by
  intro c hc
  obtain ⟨a, ha, hka⟩ := bind_eq_ok_iff.mp hc
  exact bind_eq_ok_iff.mpr ⟨f a, hx a ha, hk a ha c hka⟩

private theorem map {k : α → γ} {l : β → δ} (hx : Relocates f x y) (hk : ∀ a, l (f a) = g (k a)) :
    Relocates g (x.map k) (y.map l) := by
  intro c hc
  obtain ⟨a, ha, rfl⟩ := map_eq_ok_iff.mp hc
  exact map_eq_ok_iff.mpr ⟨f a, hx a ha, hk a⟩

private theorem checked {x : Except WireError α} {y : Except WireError β} (hx : Relocates f x y) :
    Relocates f (Envelope.checked x) (Envelope.checked y) :=
  fun a ha => checked_eq_ok_iff.mpr (hx a (checked_eq_ok_iff.mp ha))

/-- What falls back to a default does so for both or for neither, where the first goes through. -/
private theorem toOption_eq {x y : Except ε α} (hx : Relocates id x y) {a : α} (ha : x = .ok a) :
    y.toOption = x.toOption := by
  rw [hx a ha, ha]
  rfl

end Relocates

/-! ### Bytes -/

section Bytes

variable (front b : Bytes)

private theorem relocates_read (position size : Nat) :
    Relocates id (b.read position size)
      (Bytes.read (front ++ b) (front.length + position) size) := by
  intro s hs
  rw [Bytes.read_eq_ok_iff, ← Bytes.slice?_eq_some_iff] at hs ⊢
  rwa [Bytes.slice?_append_right]

private theorem relocates_readScalar (type : ScalarType) (position : Nat) :
    Relocates id (readScalar type b position)
      (readScalar type (front ++ b) (front.length + position)) :=
  (relocates_read front b position type.width).map fun _ => rfl

private theorem relocates_readVector (position : Nat) :
    Relocates id (readVector b position) (readVector (front ++ b) (front.length + position)) := by
  refine (relocates_readScalar front b .u32 position).bind fun count _ => ?_
  rw [Nat.add_assoc]
  exact relocates_read front b _ _

private theorem relocates_readString (position : Nat) :
    Relocates id (readString b position) (readString (front ++ b) (front.length + position)) := by
  refine (relocates_readVector front b position).bind fun bytes _ text htext => ?_
  dsimp only [id] at htext ⊢
  cases hutf8 : utf8? bytes with
  | some s =>
    rw [hutf8] at htext
    exact htext
  | none =>
    rw [hutf8] at htext
    cases htext

end Bytes

/-! ### Tables -/

/-- The same vtable, `n` bytes further back. -/
def VTable.shift (n : Nat) (v : VTable) : VTable := { v with position := n + v.position }

/-- The same object, with `front` put in front of its buffer. -/
def Table.shift (front : Bytes) (t : Table) : Table where
  buffer := front ++ t.buffer
  position := front.length + t.position

namespace Table

variable (front : Bytes) (t : Table)

/-- **The vtable of an object moves with it**: the reference to it is a distance. -/
theorem relocates_vtable :
    Relocates (VTable.shift front.length) t.vtable (t.shift front).vtable := by
  intro v hv
  obtain ⟨reference, start, length, objectLength, bytes, object, href, hstart, hlength, heven,
    hbytes, hobject, hfour, hread, rfl⟩ := vtable_eq_ok_iff.mp hv
  have hmoved : ((t.shift front).position : Int) - reference.toInt
      = (front.length + start : Nat) := by
    simp only [shift]
    omega
  refine vtable_eq_ok_iff.mpr ⟨reference, front.length + start, length, objectLength, bytes, object,
    relocates_readScalar front _ .i32 _ _ href, hmoved,
    relocates_readScalar front _ .u16 _ _ hlength, heven, relocates_read front _ _ _ _ hbytes, ?_,
    hfour, relocates_read front _ _ _ _ hread, rfl⟩
  rw [Nat.add_assoc]
  exact relocates_readScalar front _ .u16 _ _ hobject

private theorem relocates_ofPosition (b : Bytes) (position : Nat) :
    Relocates (shift front) (ofPosition b position)
      (ofPosition (front ++ b) (front.length + position)) := by
  intro t ht
  obtain ⟨v, hv, rfl⟩ := map_eq_ok_iff.mp ht
  exact ofPosition_eq_ok (relocates_vtable front ⟨b, position⟩ v hv)

variable (slot : UInt16)

private theorem relocates_locateField (size : Nat) :
    Relocates (Option.map (front.length + ·)) (t.locateField slot size)
      ((t.shift front).locateField slot size) := by
  refine (relocates_vtable front t).bind fun v _ found hfound => ?_
  change (if (v.fieldOffset slot).toNat = 0 then _ else ensure _ _ >>= _) = _
  by_cases hfield : (v.fieldOffset slot).toNat = 0
  · rw [if_pos hfield] at hfound ⊢
    cases hfound
    rfl
  · rw [if_neg hfield] at hfound ⊢
    obtain ⟨⟨⟩, hinside, heq⟩ := bind_eq_ok_iff.mp hfound
    cases heq
    refine bind_eq_ok_iff.mpr ⟨(), ensure_eq_ok_iff.mpr (ensure_eq_ok_iff.mp hinside), ?_⟩
    exact congrArg (fun p => Except.ok (some p)) (Nat.add_assoc _ _ _)

/-- **A scalar reads the same.** -/
theorem relocates_get (type : ScalarType) (default : type.Value) :
    Relocates id (t.get type slot default) ((t.shift front).get type slot default) := by
  refine (relocates_locateField front t slot type.width).bind fun position _ => ?_
  cases position with
  | none => exact fun _ h => h
  | some position => exact relocates_readScalar front t.buffer type position

private theorem relocates_follow :
    Relocates (Option.map (front.length + ·)) (t.follow slot) ((t.shift front).follow slot) := by
  refine (relocates_locateField front t slot 4).bind fun position _ => ?_
  cases position with
  | none =>
    exact .ok rfl
  | some position =>
    have hdistance := relocates_readScalar front t.buffer .u32 position
    refine hdistance.bind fun distance _ target htarget => ?_
    obtain ⟨⟨⟩, hin, heq⟩ := bind_eq_ok_iff.mp htarget
    cases heq
    have hin := ensure_eq_ok_iff.mp hin
    refine bind_eq_ok_iff.mpr ⟨(), ensure_eq_ok_iff.mpr ?_, ?_⟩
    · simp only [shift, List.length_append, id]
      omega
    · exact congrArg (fun p => Except.ok (some p)) (Nat.add_assoc _ _ _)

/-- **What a reference leads to reads the same**, if it does so by itself. -/
theorem relocates_getWith {α β : Type} {f : α → β} {read : Nat → Except WireError α}
    {read' : Nat → Except WireError β}
    (hread : ∀ target, Relocates f (read target) (read' (front.length + target))) :
    Relocates (Option.map f) (t.getWith slot read) ((t.shift front).getWith slot read') := by
  refine (relocates_follow front t slot).bind fun target _ => ?_
  cases target with
  | none =>
    exact .ok rfl
  | some target =>
    exact (hread target).bind fun _ _ => .ok rfl

private theorem relocates_getTable :
    Relocates (Option.map (shift front)) (t.getTable slot) ((t.shift front).getTable slot) :=
  relocates_getWith front t slot (relocates_ofPosition front t.buffer)

private theorem relocates_getString :
    Relocates id (t.getString slot) ((t.shift front).getString slot) := by
  have hread := relocates_getWith front t slot (relocates_readString front t.buffer)
  rwa [Option.map_id] at hread

private theorem relocates_getBytes :
    Relocates id (t.getBytes slot) ((t.shift front).getBytes slot) := by
  have hread := relocates_getWith front t slot (relocates_readVector front t.buffer)
  rwa [Option.map_id] at hread

end Table

/-! ### Records -/

/-- The same record, with `front` put in front of its buffer. -/
def RecordType.shift (front : Bytes) : (type : RecordType) → type.Value → type.Value
  | table, t => t.shift front
  | destination, d => ⟨d.table.shift front⟩
  | errorContent, e => ⟨e.table.shift front⟩
  | envelope, e => ⟨e.table.shift front⟩

/-- The same content, with `front` put in front of the buffer of its table. -/
def Content.shift (front : Bytes) : Content → Content
  | .error e => .error ⟨e.table.shift front⟩
  | .other tag t => .other tag (t.shift front)
  | .none => .none
  | .noMessage => .noMessage
  | .success => .success

section Records

variable (front : Bytes)

/-- A reference to a record leads to the same record, if the record is viewed the same. -/
private theorem Table.relocates_getRecord {ρ : Type} [Record ρ] {f : ρ → ρ}
    (hview : ∀ u : Table, Relocates f (Record.ofTable u) (Record.ofTable (u.shift front)))
    (t : Table) (slot : UInt16) :
    Relocates (Option.map f) (t.getRecord ρ slot) ((t.shift front).getRecord ρ slot) := by
  refine (relocates_getTable front t slot).bind fun target _ => ?_
  cases target with
  | none =>
    exact .ok rfl
  | some u =>
    exact (hview u).bind fun _ _ => .ok rfl

private theorem Destination.relocates_ofTable (t : Table) :
    Relocates (RecordType.destination.shift front) (Record.ofTable t)
      (Record.ofTable (t.shift front)) := by
  refine (Table.relocates_get front t 0 .u8 0).bind fun _ _ => ?_
  exact (Table.relocates_getString front t 1).bind fun _ _ => .ok rfl

private theorem ErrorContent.relocates_ofTable (t : Table) :
    Relocates (RecordType.errorContent.shift front) (Record.ofTable t)
      (Record.ofTable (t.shift front)) := by
  refine (Table.relocates_get front t 0 .u16 0).bind fun _ _ => ?_
  refine (Table.relocates_getString front t 1).bind fun _ _ => ?_
  exact (Table.relocates_getString front t 2).bind fun _ _ => .ok rfl

private theorem Envelope.relocates_ofTable (t : Table) :
    Relocates (RecordType.envelope.shift front) (Record.ofTable t)
      (Record.ofTable (t.shift front)) := by
  refine (Table.relocates_getRecord front (Destination.relocates_ofTable front) t 0).bind
    fun _ _ => ?_
  refine (Table.relocates_get front t 1 .u8 0).bind fun _ _ => ?_
  refine (Table.relocates_getTable front t 2).bind fun _ _ => ?_
  exact (Table.relocates_get front t 3 .i32 0).bind fun _ _ => .ok rfl

/-- **A table that can be viewed as a record can be viewed as it.** -/
theorem RecordType.relocates_ofTable (type : RecordType) (t : Table) :
    Relocates (type.shift front) (Record.ofTable t : Except WireError type.Value)
      (Record.ofTable (t.shift front)) := by
  cases type with
  | table =>
    exact .ok rfl
  | destination => exact Destination.relocates_ofTable front t
  | errorContent => exact ErrorContent.relocates_ofTable front t
  | envelope => exact Envelope.relocates_ofTable front t

/-! ### What records say -/

/-- A destination that was checked says the same. -/
private theorem Destination.shift_says {d : Destination} (h : Record.ofTable d.table = .ok d) :
    (Destination.mk (d.table.shift front)).kindByte = d.kindByte ∧
      (Destination.mk (d.table.shift front)).target = d.target := by
  obtain ⟨kind, hkind, hrest⟩ := bind_eq_ok_iff.mp h
  obtain ⟨target, htarget, -⟩ := bind_eq_ok_iff.mp hrest
  exact ⟨congrArg (Option.getD · 0) ((Table.relocates_get front _ 0 .u8 0).toOption_eq hkind),
    congrArg Option.join ((Table.relocates_getString front _ 1).toOption_eq htarget)⟩

/-- An error that was checked says the same. -/
private theorem ErrorContent.shift_says {e : ErrorContent} (h : Record.ofTable e.table = .ok e) :
    (ErrorContent.mk (e.table.shift front)).code = e.code ∧
      (ErrorContent.mk (e.table.shift front)).category = e.category ∧
      (ErrorContent.mk (e.table.shift front)).reason = e.reason := by
  obtain ⟨code, hcode, hrest⟩ := bind_eq_ok_iff.mp h
  obtain ⟨category, hcategory, hrest⟩ := bind_eq_ok_iff.mp hrest
  obtain ⟨reason, hreason, -⟩ := bind_eq_ok_iff.mp hrest
  exact ⟨congrArg (Option.getD · 0) ((Table.relocates_get front _ 0 .u16 0).toOption_eq hcode),
    congrArg Option.join ((Table.relocates_getString front _ 1).toOption_eq hcategory),
    congrArg Option.join ((Table.relocates_getString front _ 2).toOption_eq hreason)⟩

/-- An envelope that was checked says the same, and has the same destination. -/
private theorem Envelope.shift_says {e : Envelope} (h : Record.ofTable e.table = .ok e) :
    (Envelope.mk (e.table.shift front)).destination
        = e.destination.map (RecordType.destination.shift front) ∧
      (Envelope.mk (e.table.shift front)).contentType = e.contentType ∧
      (Envelope.mk (e.table.shift front)).id = e.id := by
  obtain ⟨destination, hdestination, hrest⟩ := bind_eq_ok_iff.mp h
  obtain ⟨tag, htag, hrest⟩ := bind_eq_ok_iff.mp hrest
  obtain ⟨content, hcontent, hrest⟩ := bind_eq_ok_iff.mp hrest
  obtain ⟨id, hid, -⟩ := bind_eq_ok_iff.mp hrest
  refine ⟨?_, congrArg (Option.getD · 0) ((Table.relocates_get front _ 1 .u8 0).toOption_eq htag),
    congrArg (Option.getD · 0) ((Table.relocates_get front _ 3 .i32 0).toOption_eq hid)⟩
  have hmoved := Table.relocates_getRecord front (Destination.relocates_ofTable front) e.table 0
    destination hdestination
  rw [Envelope.destination, Envelope.destination, hmoved, hdestination]
  rfl

/-- **The content of an envelope that was checked is the same.** -/
theorem Envelope.relocates_content {e : Envelope} (h : Record.ofTable e.table = .ok e) :
    Relocates (Content.shift front) e.content (Envelope.mk (e.table.shift front)).content := by
  have htag := (Envelope.shift_says front h).2.1
  intro c hc
  obtain ⟨found, hfound, -⟩ := bind_eq_ok_iff.mp hc
  have htable := checked_eq_ok_iff.mp hfound
  have hmoved : (Envelope.mk (e.table.shift front)).contentAs Table
      = .ok (found.map (Table.shift front)) :=
    Table.relocates_getRecord front (RecordType.table.relocates_ofTable front) e.table 2 _ htable
  cases found with
  | none =>
    rw [content_eq_of_none htable] at hc
    rw [content_eq_of_none hmoved, htag]
    split at hc
    case isTrue hzero =>
      cases hc
      exact if_pos hzero
    case isFalse => cases hc
  | some u =>
    rw [content_eq htable] at hc
    rw [content_eq hmoved, htag]
    rcases hbyte : ContentType.ofByte e.contentType with fault | type
    · rw [hbyte] at hc
      cases hc
      rfl
    · rw [hbyte] at hc
      cases type with
      | none => cases hc
      | noMessage | success =>
        cases hc
        rfl
      | error =>
        refine Relocates.map (g := Content.shift front)
          (ErrorContent.relocates_ofTable front u).checked (fun _ => rfl) c hc

end Records

/-! ### What was read -/

/-- A thing was checked as a reader checks it: a record was viewed, and so was that of a content. -/
def Kind.Checked : (k : Kind) → k.Value → Prop
  | record type, r => Record.ofTable (type.tableOf r) = .ok r
  | content, c => ∀ e, c.error? = some e → Record.ofTable e.table = .ok e
  | bytes, _ | vtable, _ | datum, _ => True

/-- The same thing, with `front` put in front of the buffer that it is in. -/
def Kind.shift (front : Bytes) : (k : Kind) → k.Value → k.Value
  | bytes, b => front ++ b
  | record type, r => type.shift front r
  | vtable, v => v.shift front.length
  | content, c => c.shift front
  | datum, d => d

/-- Whether a call neither takes nor gives a position counted from the front of the buffer. -/
def ReadCall.isRelative : {k l : Kind} → ReadCall k l → Bool
  | _, _, readScalar _ _ | _, _, rootTable | _, _, tableAt _ | _, _, wrap | _, _, inspect
  | _, _, position | _, _, vtablePosition => false
  | _, _, _ => true

/-- Whether none of the calls takes or gives a position counted from the front of the buffer. -/
def Chain.isRelative : {k l : Kind} → Chain k l → Bool
  | _, _, nil => true
  | _, _, cons call rest => call.isRelative && rest.isRelative

/-- A record that a reference leads to was checked. -/
private theorem checked_of_getRecord {t : Table} {slot : UInt16} (type : RecordType)
    {r : type.Value} (h : t.getRecord type.Value slot = .ok (some r)) :
    Record.ofTable (type.tableOf r) = .ok r := by
  obtain ⟨u, -, hview⟩ := (Table.finds_of_getRecord h).2 r rfl
  rwa [type.tableOf_ofTable hview]

/-- **What a call gives was checked.** -/
theorem ReadCall.checked_run {k l : Kind} {a : k.Value} {b : l.Value} (call : ReadCall k l)
    (ha : k.Checked a) (h : call.run a = .ok (some b)) : l.Checked b := by
  cases call with
  | wrap =>
    obtain ⟨t, -, hview⟩ := bind_eq_ok_iff.mp (checked_eq_ok_iff.mp (map_some_eq_ok_iff.mp h))
    rwa [Kind.Checked, RecordType.tableOf_ofTable .envelope hview]
  | viewAs type =>
    have hview := checked_eq_ok_iff.mp (map_some_eq_ok_iff.mp h)
    rwa [Kind.Checked, type.tableOf_ofTable hview]
  | getRecord type slot => exact checked_of_getRecord type (checked_eq_ok_iff.mp h)
  | contentAs type => exact checked_of_getRecord type (checked_eq_ok_iff.mp h)
  | destination =>
    have hdestination : a.destination = some b := Except.ok.inj h
    rw [Envelope.destination, Option.join_eq_some_iff] at hdestination
    exact checked_of_getRecord .destination (toOption_eq_some_iff.mp hdestination)
  | content =>
    obtain ⟨found, hfound, -⟩ := bind_eq_ok_iff.mp (map_some_eq_ok_iff.mp h)
    have hreads := Envelope.readsContent (checked_eq_ok_iff.mp hfound)
    rw [map_some_eq_ok_iff.mp h] at hreads
    rintro e he
    cases hreads with
    | error htag hview =>
      cases he
      rwa [Machine.table_of_errorContent hview]
    | _ => cases he
  | contentError => exact ha b (Except.ok.inj h)
  | rootTable | tableAt | tableOf | getTable | contentTable => rfl
  | _ => trivial

/-- What is no position is the same. -/
private theorem Relocates.datum {front : Bytes} {x y : Option Datum} (h : y = x) :
    Relocates (Option.map (Kind.datum.shift front)) (.ok x : Except EnvelopeError _)
      (.ok y : Except EnvelopeError _) := by
  subst h
  exact .ok (by cases y <;> rfl)

/-- **A call on a thing that was checked gives the same behind other bytes**, if it goes through. -/
theorem ReadCall.relocates_run (front : Bytes) {k l : Kind} {a : k.Value} (call : ReadCall k l)
    (hcall : call.isRelative = true) (ha : k.Checked a) :
    Relocates (Option.map (l.shift front)) (call.run a) (call.run (k.shift front a)) := by
  cases call with
  | readScalar | rootTable | tableAt | wrap | inspect | position | vtablePosition => cases hcall
  | tableOf type => cases type <;> exact .ok rfl
  | viewAs type => exact (type.relocates_ofTable front a).checked.map fun _ => rfl
  | vtable => exact (Table.relocates_vtable front a).checked.map fun _ => rfl
  | get type slot default =>
    exact (Table.relocates_get front a slot type default).checked.map fun _ => rfl
  | getTable slot => exact (Table.relocates_getTable front a slot).checked
  | getRecord type slot =>
    exact (Table.relocates_getRecord front (type.relocates_ofTable front) a slot).checked
  | getString slot =>
    refine (Table.relocates_getString front a slot).checked.map fun found => ?_
    cases found <;> rfl
  | getBytes slot =>
    refine (Table.relocates_getBytes front a slot).checked.map fun found => ?_
    cases found <;> rfl
  | kindByte =>
    exact .datum (congrArg (some ∘ Datum.scalar .u8) (Destination.shift_says front ha).1)
  | kind =>
    exact .datum (congrArg (fun byte => (DestinationKind.ofByte byte).toOption.map Datum.kind)
      (Destination.shift_says front ha).1)
  | target =>
    exact .datum (congrArg (Option.map Datum.text) (Destination.shift_says front ha).2)
  | code =>
    exact .datum (congrArg (some ∘ Datum.scalar .u16) (ErrorContent.shift_says front ha).1)
  | category =>
    exact .datum (congrArg (Option.map Datum.text) (ErrorContent.shift_says front ha).2.1)
  | reason =>
    exact .datum (congrArg (Option.map Datum.text) (ErrorContent.shift_says front ha).2.2)
  | destination => exact .ok (Envelope.shift_says front ha).1
  | contentType =>
    exact .datum (congrArg (some ∘ Datum.scalar .u8) (Envelope.shift_says front ha).2.1)
  | id => exact .datum (congrArg (some ∘ Datum.scalar .i32) (Envelope.shift_says front ha).2.2)
  | contentAs type =>
    exact (Table.relocates_getRecord front (type.relocates_ofTable front) a.table 2).checked
  | content => exact (Envelope.relocates_content front ha).map fun _ => rfl
  | contentTag | contentError | contentTable => cases a <;> exact .ok rfl
  | _ => exact .ok rfl

namespace Chain

/-- **A chain of calls on a thing that was checked gives the same behind other bytes.** -/
theorem relocates_run (front : Bytes) {k l : Kind} {a : k.Value} (chain : Chain k l)
    (hchain : chain.isRelative = true) (ha : k.Checked a) :
    Relocates (Option.map (l.shift front)) (chain.run a) (chain.run (k.shift front a)) := by
  induction chain with
  | nil => exact .ok rfl
  | cons call rest ih =>
    obtain ⟨hcall, hrest⟩ := (Bool.and_eq_true _ _).mp hchain
    refine (call.relocates_run front hcall ha).bind fun found hfound => ?_
    cases found with
    | none => exact .ok rfl
    | some b => exact ih hrest (call.checked_run ha hfound)

/-- **Reads are relocatable.** An object that is found at `position` in a buffer is found behind
`front` when that is put in front of the buffer, as far back as `front` is long. Whatever calls are
made from there on, if they go through without `front`, they go through with it, and give the same:
the same scalars, texts and bytes, nothing where there is nothing, and the same tables and vtables
at positions that are moved by the length of `front`. -/
theorem relocates (front : Bytes) {b : Bytes} {position : Nat} {t : Table}
    (ht : Table.ofPosition b position = .ok t) :
    Table.ofPosition (front ++ b) (front.length + position) = .ok (t.shift front) ∧
      ∀ {k : Kind} (chain : Chain (.record .table) k), chain.isRelative = true →
        ∀ found, chain.run t = .ok found →
          chain.run (t.shift front) = .ok (found.map (k.shift front)) :=
  ⟨Table.relocates_ofPosition front b position t ht,
    fun chain hchain => chain.relocates_run front hchain rfl⟩

/-- The name of the destination of `Envelope.toTopic`, with three bytes in front. -/
theorem relocates_toTopic :
    Table.ofPosition Envelope.toTopic 20 = .ok ⟨Envelope.toTopic, 20⟩ ∧
      Table.ofPosition ([1, 2, 3] ++ Envelope.toTopic) 23
        = .ok ⟨[1, 2, 3] ++ Envelope.toTopic, 23⟩ ∧
      (cons (.getRecord .destination 0) nil).run ⟨[1, 2, 3] ++ Envelope.toTopic, 23⟩
        = .ok (some ⟨⟨[1, 2, 3] ++ Envelope.toTopic, 47⟩⟩) ∧
      (cons (.getRecord .destination 0) (cons .target nil)).run ⟨[1, 2, 3] ++ Envelope.toTopic, 23⟩
        = .ok (some (.text "hé")) := by
  obtain ⟨t, ht, hposition⟩ := exists_ok_of_any (x := Table.ofPosition Envelope.toTopic 20)
    (p := fun t => t == ⟨Envelope.toTopic, 20⟩) (by decide +kernel)
  obtain rfl := eq_of_beq hposition
  obtain ⟨found, hfound, hdestination⟩ := exists_ok_of_any
    (x := Table.getRecord Destination ⟨Envelope.toTopic, 20⟩ 0)
    (p := fun found => found == some ⟨⟨Envelope.toTopic, 44⟩⟩) (by decide +kernel)
  obtain rfl := eq_of_beq hdestination
  have hrecord : (cons (.getRecord .destination 0) nil).run ⟨Envelope.toTopic, 20⟩
      = .ok (some (⟨⟨Envelope.toTopic, 44⟩⟩ : Destination)) := by
    rw [run, ReadCall.run, hfound]
    rfl
  have htext : (cons (.getRecord .destination 0) (cons .target nil)).run ⟨Envelope.toTopic, 20⟩
      = .ok (some (.text "hé")) := by
    have htarget : Destination.target ⟨⟨Envelope.toTopic, 44⟩⟩ = some "hé" := by decide +kernel
    rw [run, ReadCall.run, hfound]
    change Except.ok ((Destination.target ⟨⟨Envelope.toTopic, 44⟩⟩).map Datum.text) >>= _ = _
    rw [htarget]
    rfl
  obtain ⟨hmoved, hreads⟩ := relocates [1, 2, 3] ht
  exact ⟨ht, hmoved, hreads _ rfl _ hrecord, hreads _ rfl _ htext⟩

end Chain

end EnvelopeWire
