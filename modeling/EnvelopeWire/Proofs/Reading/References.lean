import EnvelopeWire.Proofs.Builder.Alignment
import EnvelopeWire.Proofs.Reading.Chain
import EnvelopeWire.Proofs.Reading.RoundTrip

/-!
# Where references lead

A builder takes any offset for a reference that is no more than what it has written by then. It
cannot tell an offset that it gave out before a reset from a new one, so an old offset may name the
middle of a string by now, or padding, or a vtable. Still no reference dangles: in the finished
buffer each of them leads to the place that its offset names, counted from the end, and that lies
behind the reference and in the buffer. What a reader makes of the bytes there is up to them, but it
ends with a result or with an error.

* `Account.Refers.run`: an account tells of the references that were pushed, and of no others.
* `Account.Describes.leads`: each of them leads to its target.
* `Builder.references_lead`: from calls to a finished buffer.
-/

namespace EnvelopeWire

/-! ### The references that were pushed -/

/-- The slot and the target of a field that is a reference. -/
def Field.reference? (f : Field) : Option (UInt16 × Offset) :=
  match f.value with
  | .reference target => some (f.slot, target)
  | .scalar _ _ => none

private theorem Field.value_of_reference? {f : Field} {slot : UInt16} {target : Offset}
    (h : f.reference? = some (slot, target)) : f.slot = slot ∧ f.value = .reference target := by
  rw [reference?] at h
  split at h
  case h_1 hvalue =>
    cases h
    exact ⟨rfl, hvalue⟩
  case h_2 => cases h

/-- The references among the fields of an object, last one first. -/
def Item.references : Item → List (UInt16 × Offset)
  | object fields => fields.filterMap Field.reference?
  | string _ | vector _ => []

/-- The references that were pushed since the last reset, last one first, after another call. -/
def Call.referring (pushed : List (UInt16 × Offset)) : Call → List (UInt16 × Offset)
  | pushSlotOffset slot target => (slot, target) :: pushed
  | reset => []
  | startObject _ | pushSlot _ _ _ _ | endObject | createString _ | createByteVector _ | finish _
  | finishedData | takeFinishedData => pushed

namespace Account

/-- The fields of the open object, if one is open. -/
private def openFields (a : Account) : Phase → List Field
  | .building _ _ => a.fields
  | .idle | .finished => []

/-- The references in the objects that are closed, last one first. -/
private def references (a : Account) : List (UInt16 × Offset) :=
  a.items.flatMap fun i => i.2.references

/-- An account of `d` tells of the references `pushed`: first those in the open object, then those
in the objects that were closed. -/
private def Refers (a : Account) (pushed : List (UInt16 × Offset)) (d : Draft) : Prop :=
  pushed = (Item.object (a.openFields d.phase)).references ++ a.references

namespace Refers

variable {a : Account} {pushed : List (UInt16 × Offset)} {d d' : Draft}

private theorem refers_empty (forceDefaults : Bool) : empty.Refers [] (Draft.empty forceDefaults) :=
  rfl

/-- **A call pushes what the account notes.** -/
theorem perform {call : Call} {reply : Reply} (h : a.Refers pushed d)
    (hperform : d.perform call = .ok (reply, d')) :
    (a.note d.forceDefaults call reply).Refers (Call.referring pushed call) d' := by
  cases Draft.step_of_perform hperform with
  | startObject hidle hfields hpad =>
    rw [Refers, hidle] at h
    exact h
  | elided hcheck helided =>
    rw [note, if_pos helided]
    exact h
  | @pushSlot type slot value default p hcheck hwritten hput =>
    obtain ⟨start, count, hphase, -⟩ := Phase.checkSlot_eq_ok_iff.mp hcheck
    have hphase' : (p.mark slot).phase = .building start count :=
      (Draft.phase_of_putAligned hput).trans hphase
    rw [Refers, hphase] at h
    rw [note, if_neg hwritten, Refers, hphase']
    exact h
  | @pushSlotOffset slot target p hcheck href =>
    obtain ⟨start, count, hphase, -⟩ := Phase.checkSlot_eq_ok_iff.mp hcheck
    obtain ⟨-, -, hput⟩ := Draft.putAligned_of_putReference href
    have hphase' : (p.mark slot).phase = .building start count :=
      (Draft.phase_of_putAligned hput).trans hphase
    rw [Refers, hphase] at h
    rw [Refers, hphase']
    exact congrArg ((slot, target) :: ·) h
  | endObject hphase hclose =>
    -- The references of the open object become those of the last one that is closed.
    obtain ⟨-, -, -, -, -, -, -, -, -, -, rfl⟩ := Draft.closeObject_eq_ok_iff.mp hclose
    rw [Refers, hphase] at h
    exact h
  | createString hidle hput | createByteVector hidle hput =>
    obtain ⟨-, -, hphase⟩ := Draft.stands_of_putVector hput
    rw [Refers, hidle] at h
    rw [Refers, hphase, hidle]
    exact h
  | finish hidle hpad href =>
    rw [Refers, hidle] at h
    exact h
  | reset => rfl
  | finishedData | takeFinishedData => exact h

/-- **A sequence of calls pushes what the account notes.** -/
theorem run {calls : List Call} {replies : List Reply} (h : a.Refers pushed d)
    (hrun : d.run calls = .ok (replies, d')) :
    (a.afterCalls d.forceDefaults calls replies).Refers (calls.foldl Call.referring pushed) d' :=
  invariant_of_run Call.referring Refers (fun h hperform => h.perform hperform) h hrun

end Refers

end Account

/-! ### What is found behind a reference -/

/-- The reference in `slot` of `t` leads to `target`, which lies behind it in the buffer. Whatever
is there, this is what a reader gets. -/
structure Table.Leads (t : Table) (slot : UInt16) (target : Nat) : Prop where
  reference : ∃ position, t.fieldPosition slot 4 = .ok (some position) ∧
    t.buffer.ReferenceAt position target
  getTable : t.getTable slot = (Table.ofPosition t.buffer target).map some
  getString : t.getString slot = (readString t.buffer target).map some
  getBytes : t.getBytes slot = (readVector t.buffer target).map some

private theorem ObjectStands.leads {w : Bytes} {start : Nat} {fields : List Field}
    (h : ObjectStands w start fields) (hw : w.length ≤ maxBufferSize) {slot : UInt16}
    {target : Offset} (hmem : (slot, target) ∈ (Item.object fields).references) :
    Table.Leads ⟨w, w.length - (start + objectLength fields)⟩ slot (w.length - target.value) := by
  obtain ⟨f, hf, hreference⟩ := List.mem_filterMap.mp hmem
  obtain ⟨rfl, hvalue⟩ := Field.value_of_reference? hreference
  obtain ⟨place, hfound⟩ := exists_findField hf h.laidOut.slots_nodup
  rw [hvalue] at hfound
  have hposition := Table.fieldPosition_eq_ok_iff.mpr (h.locateField_eq_some hw hfound)
  have hfollow := h.follow_of_reference hw hfound
  exact
    { reference := ⟨_, hposition, h.referenceAt hw hfound⟩
      getTable := Table.getWith_eq hfollow
      getString := Table.getWith_eq hfollow
      getBytes := Table.getWith_eq hfollow }

/-- **Each reference that an account tells of leads to its target**, whether the account tells of
that or not. -/
theorem Account.Describes.leads {a : Account} {d : Draft} (h : a.Describes d) {offset : Offset}
    {item : Item} (hmem : (offset, item) ∈ a.items) {slot : UInt16} {target : Offset}
    (hreference : (slot, target) ∈ item.references) :
    offset.value ≤ d.written.length ∧
      Table.Leads ⟨d.written, d.written.length - offset.value⟩ slot
        (d.written.length - target.value) := by
  have hstands := h.items offset item hmem
  refine ⟨hstands.bounds.2, ?_⟩
  cases item with
  | object fields =>
    obtain ⟨start, hplace, hobject⟩ := hstands
    rw [hplace]
    exact hobject.leads h.used_le hreference
  | string text | vector bytes => exact absurd hreference List.not_mem_nil

/-- In what a builder has written, a reader in machine words gets what the plain one gets. -/
private theorem Chain.run_runMachine {b : Bytes} (hb : b.length ≤ maxBufferSize) {k : Kind}
    (chain : Chain .bytes k) : (chain.runMachine b).run = .ok (chain.run b) := by
  have hmax : maxBufferSize = 2 ^ 31 - 1 := rfl
  have hlongest : Machine.maxLength = 2 ^ 63 := rfl
  have hsound : Kind.Sound b.length .bytes b := Nat.le_refl _
  obtain ⟨outcome, hrun, halike⟩ := chain.follows (by omega) hsound
  rw [hrun]
  generalize chain.run b = plain at halike ⊢
  cases halike with
  | same => rfl
  | malformed hhuge =>
    rw [Machine.Huge] at hhuge
    omega

/-! ### From calls to references -/

namespace Builder

/-- **No reference dangles.** Let any calls end with finishing a buffer, and let the offsets that
they pass be old or new. The reference to the root, and each one that was pushed since the last
reset, leads to the place that the offset passed for it names, counted from the end of the buffer.
This lies behind the four bytes of the reference and in the buffer, so that a read goes on there,
and whatever a reader does with the buffer, it ends with a result or with an error. -/
theorem references_lead {options : BuilderOptions} {calls : List Call} {root : Offset}
    {replies : List Reply} {b : Builder} {a : Account}
    (hrun : runCalls (calls ++ [Call.finish root]) (withOptions options) = .ok (replies, b))
    (haccount :
      Account.empty.afterCalls options.forceDefaults (calls ++ [Call.finish root]) replies = a) :
    ∃ data, Build.finishedData .finishedData b = .ok (data, b) ∧
      data.ReferenceAt 0 (data.length - root.value) ∧
      rootTable data = Table.ofPosition data (data.length - root.value) ∧
      (a.items.flatMap fun i => i.2.references) = calls.foldl Call.referring [] ∧
      (∀ offset item, (offset, item) ∈ a.items → ∀ slot target, (slot, target) ∈ item.references →
        offset.value ≤ data.length ∧
          Table.Leads ⟨data, data.length - offset.value⟩ slot (data.length - target.value)) ∧
      ∀ {k : Kind} (chain : Chain .bytes k),
        (chain.runMachine data).run = .ok (chain.run data) := by
  obtain ⟨hdraft, hdata⟩ := draft_of_finish hrun
  have hdescribes : a.Describes b.draft := haccount ▸ (Account.describes_empty _).run hdraft
  have hrefers := (Account.Refers.refers_empty options.forceDefaults).run hdraft
  obtain ⟨e, reply, hfinish⟩ := Draft.perform_of_run_concat hdraft
  obtain ⟨hpos, hle, hphase, hstands⟩ := Draft.stands_of_finish hfinish
  have hroot := hstands.referenceAt hdescribes.used_le hpos hle
  rw [Draft.used, Nat.sub_self] at hroot
  change (Account.empty.afterCalls options.forceDefaults _ _).Refers _ _ at hrefers
  rw [haccount, Account.Refers, hphase, List.foldl_append] at hrefers
  exact ⟨b.written, hdata, hroot, rootTable_eq_ofPosition hdescribes.used_le hle hstands,
    hrefers.symm, fun offset item hmem slot target => hdescribes.leads hmem,
    Chain.run_runMachine hdescribes.used_le⟩

/-- The offset of a string is passed after a reset, when it names the middle of another string. -/
def oldOffsetCalls : List Call :=
  [.createString "old", .reset, .createString "a new text", .startObject 1, .pushSlotOffset 0 ⟨8⟩,
    .endObject]

/-- The replies to `oldOffsetCalls` and to finishing. -/
def oldOffsetReplies : List Reply :=
  [.place ⟨8⟩, .done, .place ⟨16⟩, .done, .done, .place ⟨24⟩, .done]

theorem references_lead_oldOffset :
    ∃ b data, runCalls (oldOffsetCalls ++ [Call.finish ⟨24⟩]) (withOptions ⟨256, false⟩)
        = .ok (oldOffsetReplies, b) ∧
      Build.finishedData .finishedData b = .ok (data, b) ∧ data.ReferenceAt 0 (data.length - 24) ∧
      Table.Leads ⟨data, data.length - 24⟩ 0 (data.length - 8) := by
  obtain ⟨⟨replies, b⟩, hrun, hreplies⟩ :=
    exists_ok_of_any
      (x := runCalls (oldOffsetCalls ++ [Call.finish ⟨24⟩]) (withOptions ⟨256, false⟩))
      (p := fun r => r.1 == oldOffsetReplies) (by decide +kernel)
  obtain rfl : replies = oldOffsetReplies := eq_of_beq hreplies
  obtain ⟨data, hdata, hroot, -, -, hleads, -⟩ := references_lead hrun rfl
  obtain ⟨-, hold⟩ := hleads ⟨24⟩ _ (.head _) 0 ⟨8⟩ (.head _)
  exact ⟨b, data, hrun, hdata, hroot, hold⟩

end Builder

end EnvelopeWire
