import EnvelopeWire.Proofs.Builder.Misuse
import Mathlib.Order.Bounds.Basic

/-!
# The whole of what is written

Everything that is written is put in front of all that was written before, with as few zeros between
as let it end on its boundary. `Stacked` says this of all that calls have written since the last
reset, down to the last byte: there are the strings, the byte vectors, the objects and their vtables
in the order in which they came up, the zeros between them, and nothing else. It does not matter
what the references lead to, or what else the cells held that are written.

* `Bytes.PutOn`: what it is to be put on a boundary.
* `Stacked`: what is written as long as no object is open.
* `Account.Stacks.perform`: a call keeps to this.
* `Account.Stacks.run`: so does a whole sequence of calls.
-/

namespace EnvelopeWire

/-! ### Boundaries -/

namespace Bytes

/-- `w'` is `bytes` put in front of `w`, with the least number of zeros between them with which it
ends on a multiple of `boundary`, counted from the end of the buffer. -/
def PutOn (boundary : Nat) (bytes w w' : Bytes) : Prop :=
  ∃ n, IsLeast {n | (w.length + n + bytes.length) % boundary = 0} n ∧
    w' = bytes ++ (List.replicate n 0 ++ w)

/-- What the padding puts between is as short as can be. -/
private theorem putOn_padding {boundary : Nat} (hpos : 0 < boundary) (bytes w : Bytes) :
    PutOn boundary bytes w
      (bytes ++ (List.replicate (padding (w.length + bytes.length) boundary) 0 ++ w)) := by
  refine ⟨padding (w.length + bytes.length) boundary, ⟨?_, fun n hn => ?_⟩, rfl⟩
  · rw [Set.mem_ofPred_eq, Nat.add_right_comm]
    exact padding_spec _ hpos
  · rw [Set.mem_ofPred_eq, Nat.add_right_comm] at hn
    exact padding_le hn

/-- The least number of zeros is that of the padding. -/
private theorem PutOn.eq_padding {boundary : Nat} (hpos : 0 < boundary) {bytes w w' : Bytes}
    (h : PutOn boundary bytes w w') :
    w' = bytes ++ (List.replicate (padding (w.length + bytes.length) boundary) 0 ++ w) := by
  obtain ⟨n, hleast, rfl⟩ := h
  obtain ⟨n', hleast', heq⟩ := putOn_padding hpos bytes w
  rw [heq, hleast.unique hleast']

/-- What is put on a boundary ends there. -/
theorem PutOn.length_mod {boundary : Nat} {bytes w w' : Bytes} (h : PutOn boundary bytes w w') :
    w'.length % boundary = 0 := by
  obtain ⟨n, ⟨hmem, -⟩, rfl⟩ := h
  have hlength : (bytes ++ (List.replicate n 0 ++ w)).length = w.length + n + bytes.length := by
    simp only [List.length_append, List.length_replicate]
    omega
  rw [hlength]
  exact hmem

end Bytes

open Bytes

/-! ### Objects -/

/-- `body` is `fields` put in front of `base`, the first one first, each on a multiple of its own
width. -/
inductive FieldsPut (base : Bytes) : List Field → Bytes → Prop
  | nil : FieldsPut base [] base
  | cons {f : Field} {fields : List Field} {body body' : Bytes} (h : FieldsPut base fields body)
    (hput : PutOn f.value.width (f.value.bytes body'.length) body body') :
    FieldsPut base (f :: fields) body'

/-- `object` is an object put in front of `w`: it starts on a multiple of eight with its fields, and
the reference to its vtable, which is at `vtable`, ends it on a multiple of four. -/
inductive ObjectPut (fields : List Field) (vtable : Nat) (w object : Bytes) : Prop
  | intro {base body : Bytes} (hbase : PutOn 8 [] w base) (hfields : FieldsPut base fields body)
    (hlink : PutOn 4 (vtableReference vtable object.length) body object)

/-- The fields stand in front of where the object starts as its layout says. -/
private theorem FieldsPut.eq_append {base body : Bytes} {fields : List Field}
    (h : FieldsPut base fields body) (hbase : base.length % 8 = 0) :
    body = fieldBytes base.length fields ++ base := by
  induction h with
  | nil => rfl
  | @cons f fields body body' _ hput ih =>
    have hbody : body.length = base.length + extent fields := by
      rw [ih, List.length_append, length_fieldBytes, Nat.add_comm]
    have heq := hput.eq_padding f.value.width_pos
    rw [FieldValue.length_bytes, hbody, Nat.add_assoc, padding_start hbase] at heq
    have hlength : body'.length = base.length + extent (f :: fields) := by
      rw [heq]
      simp only [List.length_append, FieldValue.length_bytes, List.length_replicate, hbody, extent]
      omega
    rw [hlength, ih] at heq
    rw [heq, fieldBytes]
    simp only [List.append_assoc]

/-- An object stands in front of where it starts as its layout says. -/
theorem ObjectPut.eq_append {fields : List Field} {vtable : Nat} {w object : Bytes}
    (h : ObjectPut fields vtable w object) :
    ∃ n, (w.length + n) % 8 = 0 ∧
      object = objectBytes (w.length + n) vtable fields ++ (List.replicate n 0 ++ w) := by
  obtain @⟨base, body, hbase, hfields, hlink⟩ := h
  have hmod := hbase.length_mod
  obtain ⟨n, -, hw⟩ := hbase
  have hlength : base.length = w.length + n := by
    rw [hw, List.nil_append, List.length_append, List.length_replicate, Nat.add_comm]
  refine ⟨n, hlength ▸ hmod, ?_⟩
  have hbody := hfields.eq_append hmod
  have hextent : body.length = base.length + extent fields := by
    rw [hbody, List.length_append, length_fieldBytes, Nat.add_comm]
  have hobject := hlink.eq_padding (by decide)
  have hpadding : padding (body.length + 4) 4 = padding (extent fields + 4) 4 := by
    rw [hextent, Nat.add_assoc]
    exact padding_start hmod (extent fields + 4) (.reference ⟨0⟩)
  rw [length_vtableReference, hpadding] at hobject
  have hend : object.length = base.length + objectLength fields := by
    rw [hobject]
    simp only [List.length_append, length_vtableReference, List.length_replicate, hextent,
      objectLength]
    omega
  rw [hend, hbody] at hobject
  rw [hobject, objectBytes, ← hlength]
  simp only [List.append_assoc, hw, List.nil_append]

/-! ### Everything -/

/-- `w` is what has been written where `items` are what was created since the last reset, last one
first, and `vtables` are the places of the vtables that were written for them. -/
inductive Stacked : List (Offset × Item) → List Nat → Bytes → Prop
  | nil : Stacked [] [] []
  | string {items : List (Offset × Item)} {vtables : List Nat} {w w' : Bytes} {text : String}
    (h : Stacked items vtables w) (hput : PutOn 4 (vectorBytes (utf8 text) true) w w') :
    Stacked ((⟨w'.length⟩, .string text) :: items) vtables w'
  | vector {items : List (Offset × Item)} {vtables : List Nat} {w w' bytes : Bytes}
    (h : Stacked items vtables w) (hput : PutOn 4 (vectorBytes bytes false) w w') :
    Stacked ((⟨w'.length⟩, .vector bytes) :: items) vtables w'
  /-- The object shares a vtable that is written already. -/
  | shared {items : List (Offset × Item)} {vtables : List Nat} {w object : Bytes}
    {fields : List Field} {vtable : Nat} (h : Stacked items vtables w)
    (hobject : ObjectPut fields vtable w object) (hmem : vtable ∈ vtables)
    (hstands : object.StandsAt vtable (vtableOf fields)) :
    Stacked ((⟨object.length⟩, .object fields) :: items) vtables object
  /-- The vtable of the object is put right in front of it. -/
  | fresh {items : List (Offset × Item)} {vtables : List Nat} {w object : Bytes}
    {fields : List Field} {vtable : Nat} (h : Stacked items vtables w)
    (hobject : ObjectPut fields vtable w object)
    (hplace : vtable = (vtableOf fields ++ object).length) :
    Stacked ((⟨object.length⟩, .object fields) :: items) (vtables ++ [vtable])
      (vtableOf fields ++ object)

/-! ### Steps -/

namespace Draft

variable {d d' p : Draft} {bytes : Bytes} {alignment : Nat}

/-- Aligned bytes are put with the least padding that aligns them. -/
private theorem putOn_of_putAligned (hpos : 0 < alignment)
    (h : d.putAligned bytes alignment = .ok d') :
    PutOn alignment bytes d.written d'.written := by
  obtain ⟨-, rfl⟩ := put_eq_ok_iff.mp h
  change PutOn _ _ _ (bytes ++ _ ++ d.written)
  rw [List.append_assoc]
  exact putOn_padding hpos bytes d.written

/-- What is put after the padding for it is put on the boundary. -/
private theorem putOn_of_pad (hpos : 0 < alignment) (bytes : Bytes)
    (h : d.pad bytes.length alignment = .ok p) :
    PutOn alignment bytes d.written (bytes ++ p.written) := by
  obtain ⟨-, rfl⟩ := put_eq_ok_iff.mp h
  exact putOn_padding hpos bytes d.written

/-- Linking a vtable puts the reference to it in front, and in front of that the vtable, unless it
stands already. -/
private theorem written_of_linkVTable {vtable : Bytes} (h : d.VTablesWritten)
    (hlink : d.linkVTable (d.used + 4) vtable = .ok d') :
    (∃ place ∈ d.vtables, d.written.StandsAt place vtable ∧ d'.vtables = d.vtables ∧
        d'.written = vtableReference place (d.used + 4) ++ d.written) ∨
      d'.vtables = d.vtables ++ [vtable.length + (d.used + 4)] ∧
        d'.written = vtable
          ++ (vtableReference (vtable.length + (d.used + 4)) (d.used + 4) ++ d.written) := by
  rw [linkVTable] at hlink
  split at hlink
  case h_1 place hfind =>
    obtain ⟨hmem, hstands⟩ := stands_of_findVTable h hfind
    obtain ⟨-, rfl⟩ := put_eq_ok_iff.mp hlink
    exact .inl ⟨place, hmem, hstands, rfl, rfl⟩
  case h_2 hfind =>
    obtain ⟨-, rfl⟩ := put_eq_ok_iff.mp hlink
    exact .inr ⟨rfl, List.append_assoc _ _ _⟩

/-- The padding for the widest alignment and the one for the reference are one. -/
private theorem padding_padding {n m : Nat} (h : m ∣ 8) :
    padding (n + 4) m + padding (n + padding (n + 4) m + 4) 4 = padding (n + 4) (max m 4) := by
  have hcases : ∀ m ≤ 8, m ∣ 8 →
      (m = 1 ∨ m = 2 ∨ m = 4) ∧ max m 4 = 4 ∨ m = 8 ∧ max m 4 = 8 := by decide
  obtain ⟨hm, hmax⟩ | ⟨rfl, hmax⟩ := hcases m (Nat.le_of_dvd (by decide) h) h
  · rw [hmax]
    rcases hm with rfl | rfl | rfl <;> simp only [padding] <;> omega
  · rw [hmax]
    simp only [padding]
    omega

end Draft

/-! ### Calls -/

/-- All alignments are divisors of eight. -/
private theorem Call.widest_dvd (call : Call) (forceDefaults : Bool) {m : Nat} (h : m ∣ 8) :
    call.widest forceDefaults m ∣ 8 := by
  have hmax {n : Nat} (hn : n ∣ 8) : max m n ∣ 8 := by
    rcases Nat.le_total m n with hle | hle
    · rwa [Nat.max_eq_right hle]
    · rwa [Nat.max_eq_left hle]
  cases call with
  | startObject count => exact hmax (Nat.dvd_refl 8)
  | pushSlot type slot value default =>
    rw [widest]
    split
    · exact h
    · exact hmax (FieldValue.scalar type value).width_dvd
  | reset => exact Nat.one_dvd 8
  | finishedData | takeFinishedData => exact h
  | _ => exact hmax (by decide)

/-- What is written at a stage. -/
private def Stage.Holds (a : Account) (d : Draft) : Stage → Prop
  | idle => Stacked a.items d.vtables d.written
  | building count => ∃ w base, Stacked a.items d.vtables w ∧ PutOn 8 [] w base ∧
    d.phase = .building base.length count ∧ FieldsPut base a.fields d.written
  | finished root => ∃ w, Stacked a.items d.vtables w ∧
    PutOn d.minAlign (littleEndian 4 (d.written.length - root.value)) w d.written

/-- What an account says of all that is written. -/
private structure Account.Stacks (a : Account) (stage : Stage) (d : Draft) : Prop where
  minAlign_dvd : d.minAlign ∣ 8
  holds : stage.Holds a d

namespace Account.Stacks

variable {a : Account} {stage : Stage} {d d' : Draft}

private theorem stacks_empty (forceDefaults : Bool) :
    Account.empty.Stacks .idle (Draft.empty forceDefaults) where
  minAlign_dvd := Nat.one_dvd 8
  holds := .nil

/-- What stands stays, and the field that is put is the next one of the open object. -/
private theorem push {count : UInt16} {p : Draft} (h : a.Stacks (.building count) d) (slot : UInt16)
    {v : FieldValue} (hput : d.putAligned (v.bytes p.used) v.width = .ok p) :
    (Stage.building count).Holds (a.push slot v) (p.mark slot) := by
  obtain ⟨w, base, hw, hbase, hphase, hfields⟩ := h.holds
  refine ⟨w, base, ?_, hbase, (Draft.phase_of_putAligned hput).trans hphase, ?_⟩
  · obtain ⟨hvtables, -⟩ := Draft.vtables_of_putAligned hput
    change Stacked a.items p.vtables w
    rwa [hvtables]
  · have hnext : PutOn v.width (v.bytes p.written.length) d.written p.written :=
      Draft.putOn_of_putAligned v.width_pos hput
    exact .cons hfields hnext

/-- The open object is put in front, with its vtable unless that stands already. -/
private theorem close {start : Nat} {count : UInt16} {offset : Offset}
    (h : a.Stacks (.building count) d) (hd : a.Describes d)
    (hphase : d.phase = .building start count) (hclose : d.closeObject start = .ok (offset, d')) :
    Stage.idle.Holds (a.add (.object a.fields) (.place offset)) d' := by
  obtain ⟨w, base, hw, hbase, hstart, hfields⟩ := h.holds
  obtain ⟨q, hpad, -, -, hlength, vtable, hvtable, closed, hlink, rfl, rfl⟩ :=
    Draft.closeObject_eq_ok_iff.mp hclose
  have hopen := hd.openObject start count hphase
  obtain ⟨-, hused, -, hvtables⟩ := hopen.padded hpad
  rw [hused, Nat.add_sub_cancel_left] at hlength
  cases (hopen.vtableBytes_eq hpad hlength).symm.trans hvtable
  have hend (place : Nat) :
      (vtableReference place (q.used + 4) ++ q.written).length = q.used + 4 := by
    rw [List.length_append, length_vtableReference, Nat.add_comm, q.length_written]
  have hobject (place : Nat) : ObjectPut a.fields place w
      (vtableReference place (q.used + 4) ++ q.written) := by
    refine .intro hbase hfields ?_
    rw [hend]
    exact Draft.putOn_of_pad (by decide) (vtableReference place (q.used + 4)) hpad
  change Stacked ((⟨q.used + 4⟩, .object a.fields) :: a.items) closed.vtables closed.written
  rcases Draft.written_of_linkVTable (hd.vtablesWritten.pad hpad) hlink with
    ⟨place, hmem, hstands, hkept, hwritten⟩ | ⟨hadded, hwritten⟩
  · rw [hvtables] at hmem hkept
    rw [hkept, hwritten, ← hend place]
    exact .shared hw (hobject place) hmem (hstands.of_suffix (List.suffix_append _ _))
  · rw [hadded, hwritten, hvtables]
    have hfresh := Stacked.fresh hw (hobject ((vtableOf a.fields).length + (q.used + 4)))
      (by rw [List.length_append, hend])
    rwa [hend] at hfresh

/-- The reference to the root is put in front, on the widest boundary. -/
private theorem finish {root : Offset} {p q : Draft} (h : a.Stacks .idle d)
    (hpad : d.pad 4 d.minAlign = .ok p) (href : p.putReference root = .ok q) :
    (Stage.finished root).Holds a { q with phase := .finished } := by
  obtain ⟨-, -, hput⟩ := Draft.putAligned_of_putReference href
  obtain ⟨hvtables, -⟩ := Draft.vtables_of_pad hpad
  obtain ⟨hvtables', -⟩ := Draft.vtables_of_putAligned hput
  refine ⟨d.written, ?_, ?_⟩
  · change Stacked a.items q.vtables d.written
    rw [hvtables', hvtables]
    exact h.holds
  · have hp : p.minAlign = d.minAlign := (Draft.minAlign_of_pad hpad).trans (Nat.max_self _)
    have hq : q.minAlign = max d.minAlign 4 := hp ▸ Draft.minAlign_of_putAligned hput
    change PutOn q.minAlign (littleEndian 4 (q.used - root.value)) d.written q.written
    have hheader := length_littleEndian 4 (q.used - root.value)
    generalize littleEndian 4 (q.used - root.value) = header at hput hheader
    rw [hq]
    -- Both paddings together are the one for the wider boundary.
    have hwhole := putOn_padding (show 0 < max d.minAlign 4 by omega) header d.written
    rw [hheader, d.length_written, ← Draft.padding_padding h.minAlign_dvd, Nat.add_comm,
      List.replicate_add, List.append_assoc] at hwhole
    have hfront : q.written
        = header ++ (List.replicate (padding (p.used + 4) 4) 0 ++ p.written) := by
      obtain ⟨-, rfl⟩ := Draft.put_eq_ok_iff.mp hput
      change header ++ _ ++ p.written = _
      rw [List.append_assoc, hheader]
    have hback : p.written = List.replicate (padding (d.used + 4) d.minAlign) 0 ++ d.written := by
      obtain ⟨-, rfl⟩ := Draft.put_eq_ok_iff.mp hpad
      rfl
    rw [hfront, Draft.used_of_pad hpad, hback]
    exact hwhole

/-- **A call keeps to what is written.** -/
theorem perform {call : Call} {reply : Reply} (h : a.Stacks stage d) (hd : a.Describes d)
    (hstage : stage.Matches d) (hperform : d.perform call = .ok (reply, d')) :
    (a.note d.forceDefaults call reply).Stacks (stage.after call) d' := by
  refine ⟨Draft.minAlign_of_perform hperform ▸ call.widest_dvd _ h.minAlign_dvd, ?_⟩
  cases Draft.step_of_perform hperform with
  | @startObject fields p hidle hfields hpad =>
    obtain rfl := hstage.eq_idle hidle
    have hput : d.putAligned [] 8 = .ok p := hpad
    obtain ⟨hvtables, -⟩ := Draft.vtables_of_putAligned hput
    refine ⟨d.written, p.written, ?_, Draft.putOn_of_putAligned (by decide) hput, rfl, .nil⟩
    change Stacked a.items p.vtables d.written
    rw [hvtables]
    exact h.holds
  | elided hcheck helided =>
    rw [note, if_pos helided]
    exact h.holds
  | pushSlot hcheck hwritten hput =>
    obtain ⟨start, count, hphase, -⟩ := Phase.checkSlot_eq_ok_iff.mp hcheck
    obtain rfl := hstage.eq_building hphase
    rw [note, if_neg hwritten]
    exact h.push (v := .scalar _ _) _ hput
  | pushSlotOffset hcheck href =>
    obtain ⟨start, count, hphase, -⟩ := Phase.checkSlot_eq_ok_iff.mp hcheck
    obtain rfl := hstage.eq_building hphase
    obtain ⟨-, -, hput⟩ := Draft.putAligned_of_putReference href
    exact h.push (v := .reference _) _ hput
  | endObject hphase hclose =>
    obtain rfl := hstage.eq_building hphase
    exact h.close hd hphase hclose
  | createString hidle hput =>
    obtain rfl := hstage.eq_idle hidle
    obtain ⟨-, hput⟩ := Draft.putVector_eq_ok_iff.mp hput
    obtain ⟨hvtables, -⟩ := Draft.vtables_of_putAligned hput
    change Stacked _ d'.vtables _
    rw [hvtables]
    exact .string h.holds (Draft.putOn_of_putAligned (by decide) hput)
  | createByteVector hidle hput =>
    obtain rfl := hstage.eq_idle hidle
    obtain ⟨-, hput⟩ := Draft.putVector_eq_ok_iff.mp hput
    obtain ⟨hvtables, -⟩ := Draft.vtables_of_putAligned hput
    change Stacked _ d'.vtables _
    rw [hvtables]
    exact .vector h.holds (Draft.putOn_of_putAligned (by decide) hput)
  | @finish root p q hidle hpad href =>
    obtain rfl := hstage.eq_idle hidle
    exact h.finish hpad href
  | reset => exact .nil
  | finishedData | takeFinishedData => exact h.holds

/-- **A sequence of calls keeps to what is written.** -/
theorem run {calls : List Call} {replies : List Reply} (h : a.Stacks stage d) (hd : a.Describes d)
    (hstage : stage.Matches d) (hrun : d.run calls = .ok (replies, d')) :
    (a.afterCalls d.forceDefaults calls replies).Stacks (calls.foldl Stage.after stage) d' := by
  have hkept := invariant_of_run Stage.after
    (fun a stage d => a.Describes d ∧ stage.Matches d ∧ a.Stacks stage d)
    (fun ⟨hd, hstage, h⟩ hperform =>
      ⟨hd.perform hperform, hstage.perform hperform, h.perform hd hstage hperform⟩)
    ⟨hd, hstage, h⟩ hrun
  exact hkept.2.2

end Account.Stacks

/-! ### Finished buffers -/

/-- A finished draft is described by the account, and of everything in it is known what it is. -/
structure Account.Finished (a : Account) (root : Offset) (d : Draft) : Prop where
  describes : a.Describes d
  shares : ∃ closed, a.Shares closed d
  minAlign_dvd : d.minAlign ∣ 8
  stacked : ∃ w, Stacked a.items d.vtables w ∧
    PutOn d.minAlign (littleEndian 4 (d.written.length - root.value)) w d.written

/-- What a run makes that ends with finishing the buffer. -/
theorem Account.finished_of_run {forceDefaults : Bool} {calls : List Call} {root : Offset}
    {replies : List Reply} {d : Draft}
    (hrun : (Draft.empty forceDefaults).run (calls ++ [.finish root]) = .ok (replies, d)) :
    (Account.empty.afterCalls forceDefaults (calls ++ [.finish root]) replies).Finished root d := by
  have hstacks := (Stacks.stacks_empty forceDefaults).run (describes_empty _) rfl hrun
  have hholds := hstacks.holds
  rw [List.foldl_append] at hholds
  exact
    { describes := (describes_empty forceDefaults).run hrun
      shares := ⟨_, (Shares.empty forceDefaults).run (describes_empty _) hrun⟩
      minAlign_dvd := hstacks.minAlign_dvd
      stacked := hholds }

/-- A builder that finished its buffer gives it out. -/
theorem Builder.draft_of_finish {options : BuilderOptions} {calls : List Call} {root : Offset}
    {replies : List Reply} {b : Builder}
    (hrun : runCalls (calls ++ [.finish root]) (withOptions options) = .ok (replies, b)) :
    (Draft.empty options.forceDefaults).run (calls ++ [.finish root]) = .ok (replies, b.draft) ∧
      Build.finishedData .finishedData b = .ok (b.written, b) := by
  have hdraft := draft_of_run (by rw [draft_withOptions]; exact Draft.vtablesWritten_empty _) hrun
  rw [draft_withOptions] at hdraft
  refine ⟨hdraft, ?_⟩
  obtain ⟨e, reply, hfinish⟩ := Draft.perform_of_run_concat hdraft
  obtain ⟨-, -, hphase, -⟩ := Draft.stands_of_finish hfinish
  have hchecked : b.phase.checkFinished .finishedData = .ok () :=
    Phase.checkFinished_eq_ok_iff.mpr hphase
  rw [Build.finishedData, hchecked]
  rfl

end EnvelopeWire
