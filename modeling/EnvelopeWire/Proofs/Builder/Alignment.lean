import EnvelopeWire.Proofs.Builder.Shape
import EnvelopeWire.Proofs.Builder.Stacked

/-!
# Alignment in a finished buffer

While a buffer is written, the boundaries on which things are put are counted from its end, since it
is not known yet how long it will be. A reader counts from the front. The two agree in a finished
buffer, because the reference to the root is put on the widest boundary that was asked for: the
length of the buffer is a multiple of it then, and all boundaries are divisors of eight.

Nothing is put further in front than its boundary asks for: the zeros between what was written and
what is put in front of it are as few as can be.

* `Stacked.offset_mod`, `Stacked.place_mod`: boundaries counted from the end.
* `Account.Finished.aligned`: boundaries counted from the front.
* `Builder.aligned_of_finish`: all boundaries in a finished buffer, and the padding in it.
-/

namespace EnvelopeWire

open Bytes

/-! ### Counted from the end -/

namespace Stacked

variable {items : List (Offset × Item)} {vtables : List Nat} {w : Bytes}

/-- All that has an offset ends on a multiple of four. -/
theorem offset_mod (h : Stacked items vtables w) :
    ∀ entry ∈ items, entry.1.value % 4 = 0 := by
  induction h with
  | nil => exact List.forall_mem_nil _
  | string _ hput ih | vector _ hput ih => exact List.forall_mem_cons.mpr ⟨hput.length_mod, ih⟩
  | shared _ hobject _ _ ih | fresh _ hobject _ ih =>
    obtain ⟨-, -, hlink⟩ := hobject
    exact List.forall_mem_cons.mpr ⟨hlink.length_mod, ih⟩

/-- Vtables end on even places: they are even in length, and are put in front of objects. -/
theorem place_mod (h : Stacked items vtables w) : ∀ place ∈ vtables, place % 2 = 0 := by
  induction h with
  | nil => exact List.forall_mem_nil _
  | string _ _ ih | vector _ _ ih | shared _ _ _ _ ih => exact ih
  | fresh _ hobject hplace ih =>
    obtain ⟨-, -, hlink⟩ := hobject
    refine List.forall_mem_append.mpr ⟨ih, List.forall_mem_singleton.mpr ?_⟩
    have hmod := hlink.length_mod
    rw [hplace, List.length_append, length_vtableOf]
    omega

end Stacked

/-- A field ends on a multiple of its width. -/
private theorem mod_of_findField {slot : UInt16} {fields : List Field} {v : FieldValue}
    {place : Nat} (h : findField slot fields = some (v, place)) : place % v.width = 0 := by
  induction fields with
  | nil => cases h
  | cons f fields ih =>
    rw [findField] at h
    split at h
    · cases h
      rw [extent, Nat.add_right_comm]
      exact padding_spec _ f.value.width_pos
    · exact ih h

/-- Every field is found in its slot, where no slot comes up twice. -/
theorem exists_findField {f : Field} {fields : List Field} (hf : f ∈ fields)
    (hnodup : (fields.map (·.slot)).Nodup) :
    ∃ place, findField f.slot fields = some (f.value, place) := by
  induction fields with
  | nil => cases hf
  | cons g fields ih =>
    obtain ⟨hfresh, hrest⟩ := List.nodup_cons.mp hnodup
    rw [findField]
    rcases List.mem_cons.mp hf with rfl | hmem
    · exact ⟨_, if_pos rfl⟩
    · have hne : g.slot ≠ f.slot := fun heq => hfresh (List.mem_map.mpr ⟨f, hmem, heq.symm⟩)
      rw [if_neg hne]
      exact ih hmem hrest

/-! ### Counted from the front -/

/-- The object at `position` starts on a multiple of four, the vtable that is read for it is at an
even position, and each of `fields` is at a multiple of its own width, with the bytes written. -/
structure ObjectAligned (data : Bytes) (position : Nat) (fields : List Field) : Prop where
  position_mod : position % 4 = 0
  vtable_mod : ∃ v, Table.vtable ⟨data, position⟩ = .ok v ∧ v.position % 2 = 0
  field_mod : ∀ f ∈ fields, ∃ p,
    Table.fieldPosition ⟨data, position⟩ f.slot f.value.width = .ok (some p) ∧
      p % f.value.width = 0 ∧ data.read p f.value.width = .ok (f.value.bytes (data.length - p))

/-- At `position`, on a multiple of four, is the length of `bytes`, right behind that are the bytes,
and right behind those, if they are `terminated`, is a zero byte. -/
structure VectorAligned (data : Bytes) (position : Nat) (bytes : Bytes) (terminated : Bool) :
    Prop where
  position_mod : position % 4 = 0
  read_length : ∃ n : UInt32, readScalar .u32 data position = .ok n ∧ n.toNat = bytes.length
  read_bytes : data.read (position + 4) bytes.length = .ok bytes
  read_terminator : terminated = true → data.read (position + 4 + bytes.length) 1 = .ok [0]

/-- What is at `position` is aligned, and so are its parts. -/
def Item.AlignedIn (data : Bytes) (position : Nat) : Item → Prop
  | object fields => ObjectAligned data position fields
  | string text => VectorAligned data position (utf8 text) true
  | vector bytes => VectorAligned data position bytes false

/-- A vector that stands on a boundary is read there in its parts. -/
private theorem vectorAligned_of_standsAt {data bytes : Bytes} {place : Nat} {terminated : Bool}
    (hmod : (data.length - place) % 4 = 0) (hlength : bytes.length < maxBufferSize)
    (h : data.StandsAt place (vectorBytes bytes terminated)) :
    VectorAligned data (data.length - place) bytes terminated := by
  obtain ⟨count, hcount, hvalue, hbytes⟩ := read_of_standsAt_vectorBytes hlength h
  rw [vectorBytes, ← List.append_assoc] at h
  have hzeros := h.read_right
  rw [List.length_append, ScalarType.length_encode, ← Nat.add_assoc] at hzeros
  refine ⟨hmod, ⟨count, hcount, hvalue⟩, hbytes, ?_⟩
  rintro rfl
  exact hzeros

namespace Account.Finished

variable {a : Account} {root : Offset} {d : Draft}

/-- The boundaries that are counted from the end of a finished buffer are counted from its front
too, if they are as wide as four. -/
private theorem length_mod (h : a.Finished root d) : d.written.length % d.minAlign = 0 := by
  obtain ⟨w, -, hput⟩ := h.stacked
  exact hput.length_mod

/-- An object of which the widest boundary takes account is aligned. -/
private theorem objectAligned (h : a.Finished root d) (hwidth : d.minAlign = 8) {offset : Offset}
    {fields : List Field} (hmem : (offset, .object fields) ∈ a.items) :
    ObjectAligned d.written (d.written.length - offset.value) fields := by
  obtain ⟨closed, hshares⟩ := h.shares
  obtain ⟨w, hstacked, -⟩ := h.stacked
  have hlength := h.length_mod
  rw [hwidth] at hlength
  obtain ⟨place, hplace, -, hvtable⟩ := hshares.vtable_eq h.describes hmem
  have heven := hstacked.place_mod place hplace
  have hmod := hstacked.offset_mod _ hmem
  obtain ⟨start, hoffset, hstands⟩ := h.describes.items offset _ hmem
  refine ⟨?_, ⟨_, hvtable, ?_⟩, fun f hf => ?_⟩
  · change offset.value % 4 = 0 at hmod
    omega
  · change (d.written.length - place) % 2 = 0
    omega
  · obtain ⟨inner, hfound⟩ := exists_findField hf hstands.laidOut.slots_nodup
    have hstandsField := hstands.standsAt_field hfound
    have hin := hstandsField.place_le
    have hread := hstandsField.read
    rw [FieldValue.length_bytes] at hread
    refine ⟨d.written.length - (start + inner), ?_, ?_, ?_⟩
    · rw [hoffset]
      exact Table.fieldPosition_eq_ok_iff.mpr
        (hstands.locateField_eq_some h.describes.used_le hfound)
    · have hdata := f.value.mod_width hlength
      have hstart := f.value.mod_width hstands.laidOut.start_mod
      have hinner := mod_of_findField hfound
      exact Nat.mod_eq_zero_of_dvd (Nat.dvd_sub (Nat.dvd_of_mod_eq_zero hdata)
        (Nat.dvd_add (Nat.dvd_of_mod_eq_zero hstart) (Nat.dvd_of_mod_eq_zero hinner)))
    · rwa [Nat.sub_sub_self hin]

end Account.Finished

/-! ### Runs in which objects are started -/

/-- Whether an object was started since the last reset, after another call. -/
def Call.opened (opened : Bool) : Call → Bool
  | startObject _ => true
  | reset => false
  | pushSlot _ _ _ _ | pushSlotOffset _ _ | endObject | createString _ | createByteVector _
  | finish _ | finishedData | takeFinishedData => opened

/-- Where an object was started, eight is asked for. -/
private theorem Call.eight_le_widest {forceDefaults : Bool} {calls : List Call} {opened : Bool}
    {m : Nat} (h : opened = true → 8 ≤ m) (hopened : calls.foldl Call.opened opened = true) :
    8 ≤ calls.foldl (Call.widest forceDefaults) m := by
  induction calls generalizing opened m with
  | nil => exact h hopened
  | cons call calls ih =>
    refine ih (fun hcall => ?_) hopened
    cases call with
    | startObject count => exact Nat.le_max_right m 8
    | reset => cases hcall
    | pushSlot type slot value default =>
      rw [widest]
      split
      · exact h hcall
      · exact Nat.le_trans (h hcall) (Nat.le_max_left _ _)
    | finishedData | takeFinishedData => exact h hcall
    | _ => exact Nat.le_trans (h hcall) (Nat.le_max_left _ _)

/-- There is an open object, or one that was closed, only where an object was started. -/
private structure Account.Opened (a : Account) (stage : Stage) (opened : Bool) : Prop where
  building : ∀ count, stage = .building count → opened = true
  items : ∀ offset fields, (offset, .object fields) ∈ a.items → opened = true

namespace Account.Opened

variable {a : Account} {stage : Stage} {opened : Bool} {d d' : Draft}

private theorem opened_empty : Account.empty.Opened .idle false where
  building _ h := by cases h
  items _ _ hmem := absurd hmem List.not_mem_nil

/-- A call that neither starts nor closes an object adds none. -/
private theorem frame (h : a.Opened stage opened) (forceDefaults : Bool) {call : Call}
    (reply : Reply) (hreset : call ≠ .reset) (hend : call ≠ .endObject) :
    ∀ offset fields, (offset, .object fields) ∈ (a.note forceDefaults call reply).items →
      opened = true := by
  intro offset fields hmem
  rcases a.items_note forceDefaults reply hreset hend with heq | ⟨offset', item, hitem, heq⟩
  · exact h.items offset fields (heq ▸ hmem)
  · rw [heq] at hmem
    rcases List.mem_cons.mp hmem with hnew | hold
    · cases hnew
      exact absurd rfl (hitem fields)
    · exact h.items offset fields hold

/-- A call keeps to what was started, one case for each call. -/
private theorem perform {call : Call} {reply : Reply} (h : a.Opened stage opened)
    (hstage : stage.Matches d) (hperform : d.perform call = .ok (reply, d')) :
    (a.note d.forceDefaults call reply).Opened (stage.after call) (call.opened opened) := by
  cases Draft.step_of_perform hperform with
  | startObject => exact ⟨fun _ _ => rfl, fun _ _ _ => rfl⟩
  | reset => exact opened_empty
  | endObject hphase hclose =>
    have hopened := h.building _ (hstage.eq_building hphase)
    exact ⟨fun _ _ => hopened, fun _ _ _ => hopened⟩
  | finish => exact ⟨fun _ hbuilding => (by cases hbuilding), h.items⟩
  | elided | pushSlot | pushSlotOffset | createString | createByteVector | finishedData
  | takeFinishedData => exact ⟨h.building, h.frame _ _ (by simp) (by simp)⟩

/-- Calls keep to what was started. -/
private theorem run {calls : List Call} {replies : List Reply} (h : a.Opened stage opened)
    (hstage : stage.Matches d) (hrun : d.run calls = .ok (replies, d')) :
    ∃ stage', (a.afterCalls d.forceDefaults calls replies).Opened stage'
      (calls.foldl Call.opened opened) := by
  obtain ⟨stage', -, hopened⟩ := invariant_of_run Call.opened
    (fun a opened d => ∃ stage : Stage, stage.Matches d ∧ a.Opened stage opened)
    (fun ⟨_, hstage, h⟩ hperform => ⟨_, hstage.perform hperform, h.perform hstage hperform⟩)
    ⟨stage, hstage, h⟩ hrun
  exact ⟨stage', hopened⟩

end Account.Opened

/-! ### From calls to boundaries -/

/-- What `data` is aligned on, where an object was started or not, and what is known of what is in
front of what in it. -/
structure Account.AlignedIn (a : Account) (vtables : List Nat) (opened : Bool) (widest : Nat)
    (root : Offset) (data : Bytes) : Prop where
  length_mod : data.length % 4 = 0
  length_mod_of_opened : opened = true → data.length % 8 = 0
  items : ∀ offset item, (offset, item) ∈ a.items →
    offset.value ≤ data.length ∧ item.AlignedIn data (data.length - offset.value)
  places : ∀ place ∈ vtables, place ≤ data.length ∧ (data.length - place) % 2 = 0
  /-- What is in the buffer is stacked with as little padding as can be, the reference to the root
  on the widest boundary that was asked for. -/
  stacked : ∃ w, Stacked a.items vtables w ∧
    PutOn widest (littleEndian 4 (data.length - root.value)) w data

/-- What a finished account tells of is aligned in the buffer. -/
private theorem Account.Finished.alignedIn {a : Account} {root : Offset} {d : Draft} {opened : Bool}
    (h : a.Finished root d) (hfour : 4 ≤ d.minAlign) (hopened : opened = true → 8 ≤ d.minAlign)
    (hitems : ∀ offset fields, (offset, .object fields) ∈ a.items → opened = true) :
    a.AlignedIn d.vtables opened d.minAlign root d.written := by
  have hle := Nat.le_of_dvd (by decide) h.minAlign_dvd
  have hdvd : 4 ∣ d.minAlign := by
    have hall : ∀ m ≤ 8, m ∣ 8 → 4 ≤ m → 4 ∣ m := by decide
    exact hall _ hle h.minAlign_dvd hfour
  have hlength : d.written.length % 4 = 0 :=
    Nat.mod_eq_zero_of_dvd (Nat.dvd_trans hdvd (Nat.dvd_of_mod_eq_zero h.length_mod))
  have height (hstarted : opened = true) : d.minAlign = 8 := Nat.le_antisymm hle (hopened hstarted)
  obtain ⟨w, hstacked, hput⟩ := h.stacked
  refine ⟨hlength, fun hstarted => ?_, fun offset item hmem => ?_, fun place hplace => ?_,
    w, hstacked, hput⟩
  · rw [← height hstarted]
    exact h.length_mod
  · have hstands := h.describes.items offset item hmem
    have hmod : offset.value % 4 = 0 := hstacked.offset_mod _ hmem
    refine ⟨hstands.bounds.2, ?_⟩
    cases item with
    | object fields => exact h.objectAligned (height (hitems offset fields hmem)) hmem
    | string text => exact vectorAligned_of_standsAt (by omega) hstands.1 hstands.2
    | vector bytes => exact vectorAligned_of_standsAt (by omega) hstands.1 hstands.2
  · have hmod := hstacked.place_mod place hplace
    exact ⟨h.describes.vtablesWritten place hplace, by omega⟩

namespace Builder

/-- **Everything in a finished buffer is aligned**, counted from its front, and there is no more
padding in it than that takes. The buffer is a multiple of four long, and of eight if an object was
started; all that was created since the last reset is where its boundary is, and so are the fields
of the objects and the vtables that are read for them. -/
theorem aligned_of_finish {options : BuilderOptions} {calls : List Call} {root : Offset}
    {replies : List Reply} {b : Builder} {a : Account}
    (hrun : runCalls (calls ++ [.finish root]) (withOptions options) = .ok (replies, b))
    (haccount :
      Account.empty.afterCalls options.forceDefaults (calls ++ [.finish root]) replies = a) :
    ∃ data, Build.finishedData .finishedData b = .ok (data, b) ∧
      a.AlignedIn b.vtables (calls.foldl Call.opened false)
        ((calls ++ [Call.finish root]).foldl (Call.widest options.forceDefaults) 1) root data := by
  obtain ⟨hdraft, hdata⟩ := draft_of_finish hrun
  have hidle : Stage.idle.Matches (Draft.empty options.forceDefaults) := rfl
  have hfinished := Account.finished_of_run hdraft
  rw [haccount] at hfinished
  obtain ⟨-, halign⟩ := Draft.stage_of_run hidle hdraft
  obtain ⟨stage, hopened⟩ := Account.Opened.opened_empty.run hidle hdraft
  change (Account.empty.afterCalls options.forceDefaults _ _).Opened _ _ at hopened
  rw [haccount, List.foldl_append (f := Call.opened)] at hopened
  have hfour : 4 ≤ b.draft.minAlign := by
    rw [halign, List.foldl_append]
    exact Nat.le_max_right _ 4
  have height (hstarted : calls.foldl Call.opened false = true) : 8 ≤ b.draft.minAlign := by
    rw [halign, List.foldl_append]
    exact Nat.le_trans (Call.eight_le_widest (fun h => by cases h) hstarted) (Nat.le_max_left _ 4)
  have haligned := hfinished.alignedIn hfour height hopened.items
  rw [halign] at haligned
  exact ⟨b.written, hdata, haligned⟩

/-- A string of an odd length, and an object with a field of one byte, a reference and a field of
eight bytes. -/
def oddCalls : List Call :=
  [.createString "abc", .startObject 3, .pushSlot .u8 0 (9 : UInt8) (0 : UInt8),
    .pushSlotOffset 1 ⟨8⟩, .pushSlot .u64 2 (7 : UInt64) (0 : UInt64), .endObject]

/-- The replies to `oddCalls` and to finishing. -/
def oddReplies : List Reply :=
  [.place ⟨8⟩, .done, .done, .done, .done, .place ⟨28⟩, .done]

/-- The field of eight bytes is at a multiple of eight, although a string of an odd length is behind
it. -/
theorem aligned_of_finish_odd :
    ∃ b data p, runCalls (oddCalls ++ [.finish ⟨28⟩]) (withOptions ⟨16, false⟩)
        = .ok (oddReplies, b) ∧
      Build.finishedData .finishedData b = .ok (data, b) ∧ data.length % 8 = 0 ∧
      Table.fieldPosition ⟨data, data.length - 28⟩ 2 8 = .ok (some p) ∧ p % 8 = 0 ∧
      data.read (data.length - 8 + 4 + 3) 1 = .ok [0] := by
  obtain ⟨⟨replies, b⟩, hrun, hreplies⟩ := exists_ok_of_any (p := fun r => r.1 == oddReplies)
    (x := runCalls (oddCalls ++ [.finish ⟨28⟩]) (withOptions ⟨16, false⟩)) (by decide +kernel)
  obtain rfl : replies = oddReplies := eq_of_beq hreplies
  obtain ⟨data, hdata, haligned⟩ := aligned_of_finish hrun rfl
  obtain ⟨-, hobject⟩ := haligned.items ⟨28⟩ _ (.head _)
  obtain ⟨p, hp, hmod, -⟩ := hobject.field_mod _ (.head _)
  obtain ⟨-, hstring⟩ := haligned.items ⟨8⟩ _ (.tail _ (.head _))
  exact ⟨b, data, p, hrun, hdata, haligned.length_mod_of_opened rfl, hp, hmod,
    hstring.read_terminator rfl⟩

end Builder

end EnvelopeWire
