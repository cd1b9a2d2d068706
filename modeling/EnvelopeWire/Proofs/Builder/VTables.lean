import EnvelopeWire.Proofs.Builder.View
import EnvelopeWire.Proofs.Reading.Format
import EnvelopeWire.Proofs.Reading.Object
import Mathlib.Data.List.Nodup

/-!
# The vtables of a construction

An object that is closed points at an earlier vtable that reads like its own, and only where there
is none is a new one written. A vtable is looked up by comparing as many bytes as the wanted one
has; since it starts with its own length, one that agrees so far agrees in all.

What is written of vtables is therefore known from the objects alone: `Account.vtablesOf` lists
their vtables, each once, in the order in which they came up first.

* `Account.Shares.link`: what closing an object does to the vtables written.
* `Account.Shares.run`: the vtables written are those of the objects, whatever calls are made.
* `Builder.vtables_of_run`: every object leads to its own vtable, and to the same place as another
  one exactly when their vtables are equal.
-/

namespace EnvelopeWire

/-! ### Vtables in a buffer -/

namespace Bytes

/-- The vtable that starts `place` bytes before the end of `w`, as long as it says itself. -/
def vtableFrom (w : Bytes) (place : Nat) : Bytes :=
  (w.drop (w.length - place)).take (word16At (w.drop (w.length - place)) 0)

/-- Where the object that starts `place` bytes before the end of `w` says that its vtable is. Places
count from the end, so the reference is added. -/
def vtablePlace (w : Bytes) (place : Nat) : Int := place + w.int32At (w.length - place)

/-- A number that is written is read as 16 bits. -/
private theorem word16At_encode (value : UInt16) (rest : Bytes) :
    word16At (ScalarType.u16.encode value ++ rest) 0 = value.toNat := by
  have hlength : (ScalarType.u16.encode value).length = 2 := ScalarType.length_encode _ _
  rw [← toNat_decode_u16, List.drop_zero, List.take_left' hlength, ScalarType.decode_encode]

/-- Bytes put in front do not change the vtables behind them. -/
private theorem vtableFrom_of_suffix {w w' : Bytes} (h : w <:+ w') {place : Nat}
    (hplace : place ≤ w.length) : w'.vtableFrom place = w.vtableFrom place := by
  obtain ⟨front, rfl⟩ := h
  have hdrop : (front ++ w).length - place = front.length + (w.length - place) := by
    rw [List.length_append]
    omega
  rw [vtableFrom, hdrop, ← List.drop_drop, List.drop_left]
  rfl

/-- A vtable starts with its own length. -/
private theorem word16At_vtableOf_append {fields : List Field}
    (hcovered : covered fields ≤ maxFields) (rest : Bytes) :
    word16At (vtableOf fields ++ rest) 0 = (vtableOf fields).length := by
  have hmax : maxFields = 32765 := rfl
  rw [vtableOf, List.append_assoc, word16At_encode, ← vtableOf, length_vtableOf]
  exact UInt16.toNat_ofNat_of_lt' (show _ < 65536 by omega)

/-- The vtable of an object reads as itself where it stands. -/
theorem StandsAt.vtableFrom_eq {w : Bytes} {place : Nat} {fields : List Field}
    (h : w.StandsAt place (vtableOf fields)) (hcovered : covered fields ≤ maxFields) :
    w.vtableFrom place = vtableOf fields := by
  obtain ⟨back, hback⟩ := h.drop_eq
  rw [vtableFrom, hback, word16At_vtableOf_append hcovered, List.take_left]

/-- A reference that stands at the front of an object leads where it was meant to. -/
theorem StandsAt.vtablePlace_eq {w : Bytes} {place vtable : Nat}
    (h : w.StandsAt place (vtableReference vtable place)) (hw : w.length ≤ maxBufferSize)
    (hvtable : vtable ≤ w.length) : w.vtablePlace place = vtable := by
  have hmax : maxBufferSize = 2 ^ 31 - 1 := rfl
  have hplace := h.place_le
  have hread : EnvelopeWire.readScalar .i32 w (w.length - place)
      = .ok (Int32.ofInt ((vtable : Int) - place)) := h.readScalar
  obtain ⟨-, hstored⟩ := readScalar_i32_eq_ok_iff.mp hread
  rw [Int32.toInt_ofInt_of_le (by omega) (by omega)] at hstored
  rw [vtablePlace, ← hstored]
  omega

end Bytes

/-! ### The vtables of the objects of an account -/

namespace Account

/-- The vtables of the objects among `items`, each once, in the order in which they came up. -/
def vtablesOf : List (Offset × Item) → List Bytes
  | [] => []
  | (_, .object fields) :: items =>
    if vtableOf fields ∈ vtablesOf items then vtablesOf items
    else vtablesOf items ++ [vtableOf fields]
  | (_, .string _) :: items | (_, .vector _) :: items => vtablesOf items

/-- Only objects have vtables. -/
private theorem vtablesOf_cons {item : Item} (hitem : ∀ fields, item ≠ .object fields)
    (offset : Offset) (items : List (Offset × Item)) :
    vtablesOf ((offset, item) :: items) = vtablesOf items := by
  cases item with
  | object fields => exact absurd rfl (hitem fields)
  | string text => rfl
  | vector bytes => rfl

/-- No vtable is counted twice, since one that is there already is not added. -/
theorem nodup_vtablesOf (items : List (Offset × Item)) : (vtablesOf items).Nodup := by
  fun_induction vtablesOf items with
  | case1 => exact List.nodup_nil
  | case2 offset fields items hmem ih => exact ih
  | case3 offset fields items hnew ih =>
    refine List.nodup_append.mpr ⟨ih, List.pairwise_singleton _ _, fun v hv v' hv' heq => hnew ?_⟩
    rw [← List.mem_singleton.mp hv', ← heq]
    exact hv
  | case4 offset text items ih => exact ih
  | case5 offset bytes items ih => exact ih

/-- A call that closes no object adds no object to the account. -/
theorem items_note (a : Account) (forceDefaults : Bool) {call : Call} (reply : Reply)
    (hreset : call ≠ .reset) (hend : call ≠ .endObject) :
    (a.note forceDefaults call reply).items = a.items ∨
      ∃ offset item, (∀ fields, item ≠ .object fields) ∧
        (a.note forceDefaults call reply).items = (offset, item) :: a.items := by
  cases call with
  | startObject count => exact .inl rfl
  | pushSlot type slot value default =>
    rw [note]
    split <;> exact .inl rfl
  | pushSlotOffset slot target => exact .inl rfl
  | endObject => exact absurd rfl hend
  | createString text =>
    cases reply with
    | place offset => exact .inr ⟨offset, .string text, fun _ => by simp, rfl⟩
    | done => exact .inl rfl
    | data bytes => exact .inl rfl
  | createByteVector bytes =>
    cases reply with
    | place offset => exact .inr ⟨offset, .vector bytes, fun _ => by simp, rfl⟩
    | done => exact .inl rfl
    | data bytes => exact .inl rfl
  | reset => exact absurd rfl hreset
  | finish root => exact .inl rfl
  | finishedData => exact .inl rfl
  | takeFinishedData => exact .inl rfl

end Account

/-- The number of objects that were closed since the last reset, after another call. -/
def Call.countClosed (count : Nat) : Call → Nat
  | endObject => count + 1
  | reset => 0
  | startObject _ | pushSlot _ _ _ _ | pushSlotOffset _ _ | createString _ | createByteVector _
  | finish _ | finishedData | takeFinishedData => count

/-- Only the end of an object closes one, and only a reset forgets them. -/
private theorem Call.countClosed_of_ne {call : Call} (hreset : call ≠ .reset)
    (hend : call ≠ .endObject) (count : Nat) : countClosed count call = count := by
  cases call <;> first | rfl | contradiction

namespace Draft

/-- Bytes that are put leave the vtables alone. -/
theorem vtables_of_put {d d' : Draft} {bytes : Bytes} (h : d.put bytes = .ok d') :
    d'.vtables = d.vtables ∧ d'.vtablesReused = d.vtablesReused := by
  obtain ⟨-, rfl⟩ := put_eq_ok_iff.mp h
  exact ⟨rfl, rfl⟩

/-- Padding writes no vtable. -/
theorem vtables_of_pad {d d' : Draft} {size alignment : Nat} (h : d.pad size alignment = .ok d') :
    d'.vtables = d.vtables ∧ d'.vtablesReused = d.vtablesReused :=
  vtables_of_put (d := d.noteAlign alignment) h

/-- Aligned bytes write no vtable. -/
theorem vtables_of_putAligned {d d' : Draft} {bytes : Bytes} {alignment : Nat}
    (h : d.putAligned bytes alignment = .ok d') :
    d'.vtables = d.vtables ∧ d'.vtablesReused = d.vtablesReused :=
  vtables_of_put (d := d.noteAlign alignment) h

/-- Only closing an object and a reset change the vtables. -/
theorem vtables_of_perform {d d' : Draft} {call : Call} {reply : Reply} (hreset : call ≠ .reset)
    (hend : call ≠ .endObject) (h : d.perform call = .ok (reply, d')) :
    d'.vtables = d.vtables ∧ d'.vtablesReused = d.vtablesReused := by
  cases step_of_perform h with
  | startObject hidle hfields hpad =>
    obtain ⟨hvtables, hreused⟩ := vtables_of_pad hpad
    exact ⟨hvtables, hreused⟩
  | elided => exact ⟨rfl, rfl⟩
  | pushSlot hcheck hwritten hput =>
    obtain ⟨hvtables, hreused⟩ := vtables_of_putAligned hput
    exact ⟨hvtables, hreused⟩
  | pushSlotOffset hcheck href =>
    obtain ⟨-, -, hput⟩ := putAligned_of_putReference href
    obtain ⟨hvtables, hreused⟩ := vtables_of_putAligned hput
    exact ⟨hvtables, hreused⟩
  | endObject => exact absurd rfl hend
  | createString hidle hput | createByteVector hidle hput =>
    exact vtables_of_putAligned (putVector_eq_ok_iff.mp hput).2
  | finish hidle hpad href =>
    obtain ⟨-, -, hput⟩ := putAligned_of_putReference href
    obtain ⟨hvtables, hreused⟩ := vtables_of_pad hpad
    obtain ⟨hvtables', hreused'⟩ := vtables_of_putAligned hput
    exact ⟨hvtables'.trans hvtables, hreused'.trans hreused⟩
  | reset => exact absurd rfl hreset
  | finishedData | takeFinishedData => exact ⟨rfl, rfl⟩

end Draft

/-- **What an account says of the vtables in a draft**, after `closed` objects were closed. -/
structure Account.Shares (a : Account) (closed : Nat) (d : Draft) : Prop where
  /-- The vtables written are those of the objects, in order. -/
  vtables : d.vtables.map d.written.vtableFrom = vtablesOf a.items
  /-- Each object closed has a new vtable or shares one. -/
  count : d.vtables.length + d.vtablesReused = closed
  /-- The reference of an object leads to its vtable, which is one of those written. -/
  linked : ∀ offset fields, (offset, .object fields) ∈ a.items → ∃ place ∈ d.vtables,
    d.written.StandsAt place (vtableOf fields) ∧
      d.written.StandsAt offset.value (vtableReference place offset.value)

namespace Account.Shares

variable {a : Account} {closed : Nat} {d d' : Draft} {fields : List Field}

theorem empty (forceDefaults : Bool) : Account.empty.Shares 0 (Draft.empty forceDefaults) where
  vtables := rfl
  count := rfl
  linked _ _ hmem := absurd hmem List.not_mem_nil

/-- Bytes put in front change nothing. -/
private theorem mono (h : a.Shares closed d) (hv : d.VTablesWritten)
    (hwritten : d.written <:+ d'.written) (hvtables : d'.vtables = d.vtables)
    (hreused : d'.vtablesReused = d.vtablesReused) :
    a.Shares closed d' where
  vtables := by
    rw [hvtables, ← h.vtables]
    exact List.map_congr_left fun place hplace =>
      Bytes.vtableFrom_of_suffix hwritten (hv place hplace)
  count := by
    rw [hvtables, hreused]
    exact h.count
  linked offset fields hmem := by
    obtain ⟨place, hplace, hvtable, hreference⟩ := h.linked offset fields hmem
    exact ⟨place, hvtables ▸ hplace, hvtable.of_suffix hwritten, hreference.of_suffix hwritten⟩

theorem pad (h : a.Shares closed d) (hv : d.VTablesWritten) {size alignment : Nat}
    (hpad : d.pad size alignment = .ok d') : a.Shares closed d' := by
  obtain ⟨hvtables, hreused⟩ := Draft.vtables_of_pad hpad
  refine h.mono hv ?_ hvtables hreused
  obtain ⟨-, rfl⟩ := Draft.put_eq_ok_iff.mp hpad
  exact List.suffix_append _ _

/-- A vtable that is found is that of an earlier object, whole. -/
theorem mem_of_findVTable (h : a.Shares closed d) (hv : d.VTablesWritten)
    (hcovered : covered fields ≤ maxFields) {place : Nat}
    (hfind : d.findVTable (vtableOf fields) = some place) :
    vtableOf fields ∈ vtablesOf a.items := by
  obtain ⟨hmem, hstands⟩ := Draft.stands_of_findVTable hv hfind
  rw [← h.vtables, ← hstands.vtableFrom_eq hcovered]
  exact List.mem_map_of_mem hmem

/-- A vtable that is not found is not that of an earlier object. -/
theorem not_mem_of_findVTable (h : a.Shares closed d)
    (hfind : d.findVTable (vtableOf fields) = none) : vtableOf fields ∉ vtablesOf a.items := by
  intro hmem
  rw [← h.vtables] at hmem
  obtain ⟨place, hplace, heq⟩ := List.mem_map.mp hmem
  refine List.find?_eq_none.mp hfind place hplace ?_
  rw [← heq]
  exact List.isPrefixOf_iff_prefix.mpr (List.take_prefix _ _)

/-- **Linking the vtable of an object** makes it one of the vtables written, if it was not one
before. -/
theorem link (h : a.Shares closed d) (hv : d.VTablesWritten) (hcovered : covered fields ≤ maxFields)
    (hlink : d.linkVTable (d.used + 4) (vtableOf fields) = .ok d') :
    (a.add (.object fields) (.place ⟨d.used + 4⟩)).Shares (closed + 1) d' := by
  have hgrows := Draft.grows_of_linkVTable hlink
  have hold : d.vtables.map d'.written.vtableFrom = vtablesOf a.items := by
    rw [← h.vtables]
    exact List.map_congr_left fun place hplace =>
      Bytes.vtableFrom_of_suffix hgrows.written (hv place hplace)
  have hcount := h.count
  obtain ⟨place, hstands, hsuffix, hcases⟩ := Draft.linkVTable_cases hv hlink
  have hplace : place ∈ d'.vtables := by
    rcases hcases with ⟨hfind, hvtables, -⟩ | ⟨-, hvtables, -⟩
    · rw [hvtables]
      exact List.mem_of_find?_eq_some hfind
    · rw [hvtables]
      exact List.mem_append_right _ (List.mem_singleton.mpr rfl)
  refine ⟨?_, ?_, fun offset inner hmem => ?_⟩
  · change _ = if vtableOf fields ∈ vtablesOf a.items then vtablesOf a.items else _
    rcases hcases with ⟨hfind, hvtables, -⟩ | ⟨hfind, hvtables, -⟩
    · rw [if_pos (h.mem_of_findVTable hv hcovered hfind), hvtables, hold]
    · rw [if_neg (h.not_mem_of_findVTable hfind), hvtables, List.map_append, hold,
        List.map_singleton, hstands.vtableFrom_eq hcovered]
  · rcases hcases with ⟨-, hvtables, hreused⟩ | ⟨-, hvtables, hreused⟩
    · rw [hvtables, hreused]
      omega
    · rw [hvtables, hreused, List.length_append, List.length_singleton]
      omega
  · rcases List.mem_cons.mp hmem with heq | hmem
    · cases heq
      have hreference := Bytes.standsAt_front (vtableReference place (d.used + 4)) d.written
      rw [List.length_append, length_vtableReference, d.length_written, Nat.add_comm 4]
        at hreference
      exact ⟨place, hplace, hstands, hreference.of_suffix hsuffix⟩
    · obtain ⟨place, hplace, hvtable, hreference⟩ := h.linked offset inner hmem
      exact ⟨place, hgrows.vtables.subset hplace, hvtable.of_suffix hgrows.written,
        hreference.of_suffix hgrows.written⟩

/-- Closing an object links its vtable. -/
private theorem close (h : a.Shares closed d) (hd : a.Describes d) {start : Nat} {count : UInt16}
    (hphase : d.phase = .building start count) {offset : Offset}
    (hclose : d.closeObject start = .ok (offset, d')) :
    (a.add (.object a.fields) (.place offset)).Shares (closed + 1) d' := by
  have hopen := hd.openObject start count hphase
  obtain ⟨p, hpad, -, -, hlength, vtable, hvtable, c, hlink, rfl, rfl⟩ :=
    Draft.closeObject_eq_ok_iff.mp hclose
  obtain ⟨-, hused, -, -⟩ := hopen.padded hpad
  rw [hused, Nat.add_sub_cancel_left] at hlength
  cases (hopen.vtableBytes_eq hpad hlength).symm.trans hvtable
  have hpadded := h.pad hd.vtablesWritten hpad
  obtain ⟨hall, hcount, hlinked⟩ :=
    hpadded.link (hd.vtablesWritten.pad hpad) hopen.laidOut.covered_le hlink
  exact ⟨hall, hcount, hlinked⟩

/-- A call that closes no object leaves the objects and the vtables as they are. -/
private theorem frame (h : a.Shares closed d) (hd : a.Describes d) {call : Call} {reply : Reply}
    (hreset : call ≠ .reset) (hend : call ≠ .endObject)
    (hperform : d.perform call = .ok (reply, d')) :
    (a.note d.forceDefaults call reply).Shares closed d' := by
  obtain ⟨hvtables, hreused⟩ := Draft.vtables_of_perform hreset hend hperform
  have hgrows := Draft.grows_of_perform hreset hperform
  obtain ⟨hall, hcount, hlinked⟩ := h.mono hd.vtablesWritten hgrows.written hvtables hreused
  rcases a.items_note d.forceDefaults reply hreset hend with hsame | ⟨offset, item, hitem, hadded⟩
  · exact ⟨hsame ▸ hall, hcount, hsame ▸ hlinked⟩
  · refine ⟨?_, hcount, fun offset' fields hmem => ?_⟩
    · rw [hadded, vtablesOf_cons hitem]
      exact hall
    · rw [hadded] at hmem
      rcases List.mem_cons.mp hmem with heq | hmem
      · cases heq
        exact absurd rfl (hitem fields)
      · exact hlinked offset' fields hmem

/-- **A call keeps what the account says of the vtables.** -/
theorem perform (h : a.Shares closed d) (hd : a.Describes d) {call : Call} {reply : Reply}
    (hperform : d.perform call = .ok (reply, d')) :
    (a.note d.forceDefaults call reply).Shares (call.countClosed closed) d' := by
  by_cases hreset : call = .reset
  · subst hreset
    cases hperform
    exact .empty _
  · by_cases hend : call = .endObject
    · subst hend
      cases Draft.step_of_perform hperform with
      | endObject hphase hclose => exact h.close hd hphase hclose
    · rw [Call.countClosed_of_ne hreset hend]
      exact h.frame hd hreset hend hperform

/-- **A sequence of calls keeps what the account says of the vtables.** -/
theorem run (h : a.Shares closed d) (hd : a.Describes d) {calls : List Call}
    {replies : List Reply} (hrun : d.run calls = .ok (replies, d')) :
    (a.afterCalls d.forceDefaults calls replies).Shares
      (calls.foldl Call.countClosed closed) d' := by
  have hkept := invariant_of_run Call.countClosed
    (fun a closed d => a.Describes d ∧ a.Shares closed d)
    (fun h hperform => ⟨h.1.perform hperform, h.2.perform h.1 hperform⟩) ⟨hd, h⟩ hrun
  exact hkept.2

end Account.Shares

/-! ### What the vtable of an object tells -/

/-- The bytes of `vtable` tell of the object at `offset` with the fields `fields`: how long both
are, and where in `w` each field lies, counted from the front of the object. -/
structure TellsOf (w vtable : Bytes) (offset : Nat) (fields : List Field) : Prop where
  /-- There are entries up to the last slot that is written. -/
  length : vtable.length = 4 + 2 * covered fields
  length_eq : vtable.word16At 0 = vtable.length
  object : ∃ start place, w.StandsAt offset (objectBytes start place fields) ∧
    vtable.word16At 2 = (objectBytes start place fields).length
  absent : ∀ slot : UInt16, findField slot fields = none → vtable.word16At (4 + 2 * slot.toNat) = 0
  written : ∀ (slot : UInt16) (value : FieldValue) (place : Nat),
    findField slot fields = some (value, place) →
      vtable.word16At (4 + 2 * slot.toNat) = objectLength fields - place ∧
      w.StandsAt (offset - vtable.word16At (4 + 2 * slot.toNat))
        (value.bytes (offset - vtable.word16At (4 + 2 * slot.toNat)))

/-- The number stored for a slot is the one that a reader finds, behind the last entry too. -/
private theorem word16At_vtableOf (fields : List Field) (slot : UInt16) :
    (vtableOf fields).word16At (4 + 2 * slot.toNat)
      = ((vtableEntry (objectLength fields) fields slot).getD 0).toNat := by
  rw [← fieldOffset_vtableOf 0 slot, VTable.fieldOffset_eq]
  split
  next hshort =>
    change (vtableOf fields).length < _ at hshort
    have hlength := length_vtableOf fields
    have hbehind {i : Nat} (hi : 4 + 2 * slot.toNat ≤ i) : (vtableOf fields).byteAt i = 0 := by
      rw [Bytes.byteAt, List.getD_eq_default _ _ (by omega)]
      rfl
    rw [Bytes.word16At, hbehind (Nat.le_refl _), hbehind (Nat.le_succ _)]
    rfl
  next => exact (toNat_decode_u16 _ _).symm

/-- The vtable of an object that stands somewhere tells of it. -/
private theorem ObjectStands.tellsOf {w : Bytes} {start : Nat} {fields : List Field}
    (h : ObjectStands w start fields) :
    TellsOf w (vtableOf fields) (start + objectLength fields) fields where
  length := length_vtableOf fields
  length_eq := by
    have hstored := Bytes.word16At_vtableOf_append h.laidOut.covered_le []
    rwa [List.append_nil] at hstored
  object := by
    obtain ⟨place, hobject, -⟩ := h.stands
    refine ⟨start, place, hobject, ?_⟩
    rw [length_objectBytes, ← objectLength_vtableOf 0 h.length_le]
    exact (toNat_decode_u16 _ _).symm
  absent slot hnone := by
    rw [word16At_vtableOf, vtableEntry, hnone]
    rfl
  written slot value place hfound := by
    obtain ⟨-, hplace⟩ := le_of_findField hfound
    have hlength := h.length_le
    have hextent := extent_le_objectLength fields
    have hentry :
        (vtableOf fields).word16At (4 + 2 * slot.toNat) = objectLength fields - place := by
      rw [word16At_vtableOf, vtableEntry, hfound]
      exact UInt16.toNat_ofNat_of_lt' (show _ < 65536 by omega)
    have hat : start + objectLength fields - (objectLength fields - place) = start + place := by
      omega
    refine ⟨hentry, ?_⟩
    rw [hentry, hat]
    exact h.standsAt_field hfound

namespace Builder

/-- **The vtables that a builder has written.** Whatever calls were made, they are those of the
objects closed since the last reset, each once, and every one of these objects leads to its own. -/
theorem vtables_of_run {options : BuilderOptions} {calls : List Call} {replies : List Reply}
    {b : Builder} {a : Account}
    (hrun : runCalls calls (withOptions options) = .ok (replies, b))
    (haccount : Account.empty.afterCalls options.forceDefaults calls replies = a) :
    b.vtables.map b.written.vtableFrom = Account.vtablesOf a.items ∧
      (b.vtables.map b.written.vtableFrom).Nodup ∧
      b.vtableCount + b.vtablesReused = calls.foldl Call.countClosed 0 ∧
      ∀ offset fields, (offset, .object fields) ∈ a.items →
        (∃ place ∈ b.vtables, b.written.vtablePlace offset.value = place ∧
          b.written.vtableFrom place = vtableOf fields) ∧
        TellsOf b.written (vtableOf fields) offset.value fields ∧
        ∀ offset' fields', (offset', .object fields') ∈ a.items →
          (b.written.vtablePlace offset.value = b.written.vtablePlace offset'.value ↔
            vtableOf fields = vtableOf fields') := by
  have hdraft := draft_of_run (by rw [draft_withOptions]; exact Draft.vtablesWritten_empty _) hrun
  rw [draft_withOptions] at hdraft
  have hdescribes : a.Describes b.draft := by
    rw [← haccount]
    exact (Account.describes_empty _).run hdraft
  have hshares : a.Shares (calls.foldl Call.countClosed 0) b.draft := by
    rw [← haccount]
    exact (Account.Shares.empty _).run (Account.describes_empty _) hdraft
  have hnodup : (b.vtables.map b.written.vtableFrom).Nodup := by
    have hvtables : b.vtables.map b.written.vtableFrom = Account.vtablesOf a.items :=
      hshares.vtables
    rw [hvtables]
    exact Account.nodup_vtablesOf a.items
  have hleads : ∀ offset fields, (offset, .object fields) ∈ a.items →
      ∃ place ∈ b.vtables, b.written.vtablePlace offset.value = place ∧
        b.written.vtableFrom place = vtableOf fields := by
    intro offset fields hmem
    obtain ⟨start, -, hstands⟩ := hdescribes.items offset _ hmem
    obtain ⟨place, hplace, hvtable, hreference⟩ := hshares.linked offset fields hmem
    exact ⟨place, hplace, hreference.vtablePlace_eq hdescribes.used_le hvtable.place_le,
      hvtable.vtableFrom_eq hstands.laidOut.covered_le⟩
  refine ⟨hshares.vtables, hnodup, hshares.count,
    fun offset fields hmem => ⟨hleads offset fields hmem, ?_, ?_⟩⟩
  · obtain ⟨start, hplace, hstands⟩ := hdescribes.items offset _ hmem
    rw [hplace]
    exact hstands.tellsOf
  · intro offset' fields' hmem'
    obtain ⟨place, hplace, hat, hreads⟩ := hleads offset fields hmem
    obtain ⟨place', hplace', hat', hreads'⟩ := hleads offset' fields' hmem'
    rw [hat, hat', ← hreads, ← hreads']
    constructor
    · intro heq
      rw [Int.natCast_inj.mp heq]
    · intro heq
      rw [List.inj_on_of_nodup_map hnodup hplace hplace' heq]

/-- After a reset: three objects, the first and the last with a number in slot 1, the second with
nothing. -/
def sharingCalls : List Call :=
  [.startObject 1, .pushSlot .u8 0 (9 : UInt8) (0 : UInt8), .endObject, .reset, .startObject 2,
    .pushSlot .u16 1 (7 : UInt16) (0 : UInt16), .endObject, .startObject 1, .endObject,
    .startObject 9, .pushSlot .u16 1 (8 : UInt16) (0 : UInt16), .endObject]

/-- The replies to `sharingCalls`. -/
def sharingReplies : List Reply :=
  [.done, .done, .place ⟨8⟩, .done, .done, .done, .place ⟨8⟩, .done, .place ⟨20⟩, .done, .done,
    .place ⟨32⟩]

/-- Three objects with two vtables between them. -/
theorem vtables_of_run_sharing :
    ∃ b, runCalls sharingCalls (withOptions ⟨16, false⟩) = .ok (sharingReplies, b) ∧
      b.vtableCount + b.vtablesReused = 3 ∧
      b.written.vtablePlace 8 = b.written.vtablePlace 32 ∧
      b.written.vtablePlace 8 ≠ b.written.vtablePlace 20 := by
  obtain ⟨⟨replies, b⟩, hrun, hreplies⟩ := exists_ok_of_any (p := fun r => r.1 == sharingReplies)
    (x := runCalls sharingCalls (withOptions ⟨16, false⟩)) (by decide +kernel)
  obtain rfl : replies = sharingReplies := eq_of_beq hreplies
  obtain ⟨-, -, hcount, hobjects⟩ := vtables_of_run hrun rfl
  obtain ⟨-, -, hfirst⟩ := hobjects ⟨8⟩ _ (.tail _ (.tail _ (.head _)))
  refine ⟨b, hrun, hcount, (hfirst ⟨32⟩ _ (.head _)).mpr (by decide), fun heq => ?_⟩
  exact absurd ((hfirst ⟨20⟩ _ (.tail _ (.head _))).mp heq) (by decide)

end Builder

end EnvelopeWire
