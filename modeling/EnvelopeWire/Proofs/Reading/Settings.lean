import EnvelopeWire.Proofs.Description.Given
import EnvelopeWire.Proofs.Description.RoundTrip
import EnvelopeWire.Proofs.Reading.Envelope

/-!
# Envelopes slot by slot

An envelope may be written slot by slot, with any of its four slots set, in any order. Whatever was
built before in the same buffer, and whatever is set, a reader finds in each slot what was set there
and nothing in the others. Tag and content are set apart from each other in this way; an envelope
that is created from a content has both of them or none.

* `EnvelopeSettings.valueIn_of_perm`: each slot has what was set there, in whatever order.
* `Envelope.wire_of_create`: the content of an envelope that was created goes with its tag.
* `Envelope.reads_settings`: what was set is what is read.
-/

namespace EnvelopeWire

/-! ### Settings -/

/-- A scalar where there is a value. -/
def RecordSlot.ofScalar (type : ScalarType) (default : type.Value) : Option type.Value → RecordSlot
  | some value => scalar type value default
  | none => absent

/-- A slot that is set, as a slot of a record. -/
def EnvelopeField.slot : EnvelopeField → UInt16 × RecordSlot
  | destination target => (0, .reference target)
  | contentType tag => (1, .scalar .u8 tag (0 : UInt8))
  | content target => (2, .reference target)
  | id value => (3, .scalar .i32 value (0 : Int32))

private theorem Envelope.createFields_eq (fields : List EnvelopeField) :
    createFields fields = writeRecord 4 (fields.map EnvelopeField.slot) := by
  have hpush (fields : List EnvelopeField) : fields.forM EnvelopeField.push
      = (fields.map EnvelopeField.slot).forM fun s => s.2.push s.1 := by
    induction fields with
    | nil => rfl
    | cons field fields ih =>
      have hfield : field.push = field.slot.2.push field.slot.1 := by cases field <;> rfl
      change (field.push >>= fun _ => fields.forM EnvelopeField.push) = _
      rw [ih, hfield]
      rfl
  rw [createFields, writeRecord, hpush]

/-- What the slots of an envelope are set to, if at all. -/
structure EnvelopeSettings where
  destination : Option Offset
  contentType : Option UInt8
  content : Option Offset
  id : Option Int32

namespace EnvelopeSettings

/-- The slots that are set. -/
def fields (s : EnvelopeSettings) : List EnvelopeField :=
  (s.destination.map .destination).toList ++ (s.contentType.map .contentType).toList
    ++ (s.content.map .content).toList ++ (s.id.map .id).toList

/-- All slots, also those that are not set. -/
def slots (s : EnvelopeSettings) : List (UInt16 × RecordSlot) :=
  [(0, .ofReference s.destination), (1, .ofScalar .u8 (0 : UInt8) s.contentType),
    (2, .ofReference s.content), (3, .ofScalar .i32 (0 : Int32) s.id)]

variable {s : EnvelopeSettings} {fields : List EnvelopeField}

private theorem nodup_slots (h : fields.Perm s.fields) :
    ((fields.map EnvelopeField.slot).map Prod.fst).Nodup := by
  rw [((h.map _).map _).nodup_iff]
  obtain ⟨destination, contentType, content, id⟩ := s
  cases destination <;> cases contentType <;> cases content <;> cases id <;>
    simp [EnvelopeSettings.fields, EnvelopeField.slot]

/-- A slot is either set or has nothing in it. -/
private theorem mem_or_absent {slot : UInt16} {r : RecordSlot} (h : (slot, r) ∈ s.slots) :
    (slot, r) ∈ s.fields.map EnvelopeField.slot ∨
      r = .absent ∧ slot ∉ (s.fields.map EnvelopeField.slot).map Prod.fst := by
  obtain ⟨destination, contentType, content, id⟩ := s
  simp only [slots, List.mem_cons, Prod.mk.injEq, List.not_mem_nil, or_false] at h
  rcases h with ⟨rfl, rfl⟩ | ⟨rfl, rfl⟩ | ⟨rfl, rfl⟩ | ⟨rfl, rfl⟩
  · cases destination <;>
      simp [EnvelopeSettings.fields, EnvelopeField.slot, RecordSlot.ofReference]
  · cases contentType <;>
      simp [EnvelopeSettings.fields, EnvelopeField.slot, RecordSlot.ofScalar]
  · cases content <;>
      simp [EnvelopeSettings.fields, EnvelopeField.slot, RecordSlot.ofReference]
  · cases id <;>
      simp [EnvelopeSettings.fields, EnvelopeField.slot, RecordSlot.ofScalar]

/-- **Each slot has what was set there**, in whatever order the slots were set. -/
theorem valueIn_of_perm (forceDefaults : Bool) (h : fields.Perm s.fields) {slot : UInt16}
    {r : RecordSlot} (hslot : (slot, r) ∈ s.slots) :
    valueIn (recordFields forceDefaults (fields.map EnvelopeField.slot)) slot
      = r.value forceDefaults := by
  have hperm := h.map EnvelopeField.slot
  rcases mem_or_absent hslot with hmem | ⟨rfl, hnot⟩
  · exact valueIn_recordFields (nodup_slots h) (hperm.mem_iff.mpr hmem)
  · refine valueIn_recordFields_of_notMem fun hmem => hnot ?_
    exact (hperm.map Prod.fst).mem_iff.mp hmem

/-- What the slots refer to was written. -/
private structure KnownIn (s : EnvelopeSettings) (a : Account) : Prop where
  destination : ∀ o, s.destination = some o → ∃ fields, (o, .object fields) ∈ a.items
  content : ∀ o, s.content = some o → ∃ fields, (o, .object fields) ∈ a.items

private theorem slotsFit {a : Account} (hknown : s.KnownIn a) (h : fields.Perm s.fields) :
    SlotsFit a 4 (fields.map EnvelopeField.slot) where
  length_le := by
    rw [List.length_map, h.length_eq]
    obtain ⟨destination, contentType, content, id⟩ := s
    cases destination <;> cases contentType <;> cases content <;> cases id <;>
      simp [EnvelopeSettings.fields]
  nodup := nodup_slots h
  lt p hp := by
    obtain ⟨field, -, rfl⟩ := List.mem_map.mp hp
    cases field <;> simp [EnvelopeField.slot]
  known p hp := by
    obtain ⟨field, hfield, rfl⟩ := List.mem_map.mp hp
    have hmem : field ∈ s.fields := h.mem_iff.mp hfield
    cases field with
    | destination o =>
      have hset : s.destination = some o := by simpa [EnvelopeSettings.fields] using hmem
      obtain ⟨fields, hitem⟩ := hknown.destination o hset
      exact Account.knows_of_mem hitem
    | content o =>
      have hset : s.content = some o := by simpa [EnvelopeSettings.fields] using hmem
      obtain ⟨fields, hitem⟩ := hknown.content o hset
      exact Account.knows_of_mem hitem
    | contentType tag => trivial
    | id value => trivial

end EnvelopeSettings

/-! ### Reading what was set -/

/-- What an envelope in `data` reads where `s` was set, with `spec` written under the
destination. -/
structure EnvelopeSettings.ReadFrom (s : EnvelopeSettings) (spec : Option DestinationSpec)
    (data : Bytes) (e : Envelope) : Prop where
  destination : e.destination.map (fun d => (d.kind, d.target))
    = spec.map fun d => (some d.kind, d.target)
  contentType : e.contentType = s.contentType.getD 0
  content : e.contentAs Table
    = .ok (s.content.map fun o => { buffer := data, position := data.length - o.value })
  content_le : ∀ o, s.content = some o → o.value ≤ data.length
  id : e.id = s.id.getD 0

namespace Account.Describes

variable {a : Account} {d : Draft} {forceDefaults : Bool} {offset root : Offset} {slot : UInt16}

/-- A scalar reads as what was set, or as the default where nothing was. -/
private theorem get_of_scalarSlot (h : a.Describes d) {fields : List Field}
    (hmem : (offset, .object fields) ∈ a.items) {type : ScalarType} {value : Option type.Value}
    {default : type.Value}
    (hvalue : valueIn fields slot
      = (RecordSlot.ofScalar type default value).value forceDefaults)
    (hagrees : ∀ v, type.agrees v default = true → v = default) :
    (d.tableAt offset).get type slot default = .ok (value.getD default) := by
  cases value with
  | none => exact h.get_of_absent hmem hvalue type default
  | some value => exact h.get_of_slot hmem hvalue (hagrees value)

/-- **What was set is what is read.** -/
theorem exists_envelope (h : a.Describes d) (hmatches : (Stage.finished root).Matches d)
    {s : EnvelopeSettings} {fields : List EnvelopeField} (hfields : fields.Perm s.fields)
    (hroot : (root, .object (recordFields forceDefaults (fields.map EnvelopeField.slot)))
      ∈ a.items) {spec : Option DestinationSpec}
    (hdestination : Option.Rel (a.HoldsDestination forceDefaults) spec s.destination)
    (hcontent : ∀ o, s.content = some o → ∃ fields, (o, .object fields) ∈ a.items) :
    ∃ e, Envelope.ofBuffer d.written = .ok e ∧ s.ReadFrom spec d.written e := by
  have hvalue {slot : UInt16} {r : RecordSlot} (hslot : (slot, r) ∈ s.slots) :
      valueIn (recordFields forceDefaults (fields.map EnvelopeField.slot)) slot
        = r.value forceDefaults := EnvelopeSettings.valueIn_of_perm forceDefaults hfields hslot
  have hreference {slot : UInt16} {target : Option Offset}
      (hslot : (slot, .ofReference target) ∈ s.slots) :
      valueIn (recordFields forceDefaults (fields.map EnvelopeField.slot)) slot
        = target.map .reference := (hvalue hslot).trans (RecordSlot.value_ofReference _ _)
  have hrootTable : rootTable d.written = .ok (d.tableAt root) :=
    rootTable_of_stands h.used_le hmatches.2.1 hmatches.2.2 (h.ofPosition_eq hroot).2
  obtain ⟨record, hrecord, hreport⟩ :=
    h.getRecord_of_slot hroot (hreference (.head _)) hdestination
  have htag := h.get_of_scalarSlot hroot (hvalue (.tail _ (.head _))) fun _ => of_decide_eq_true
  have htable := h.getTable_of_slot hroot (hreference (.tail _ (.tail _ (.head _)))) hcontent
  have hid := h.get_of_scalarSlot hroot (hvalue (.tail _ (.tail _ (.tail _ (.head _)))))
    fun _ => of_decide_eq_true
  obtain ⟨henvelope, hrecordEq, htagEq, htableEq, hidEq⟩ :=
    Envelope.ofBuffer_eq hrootTable hrecord htag htable hid
  refine ⟨_, henvelope, ?_, htagEq, htableEq, fun o ho => ?_, hidEq⟩
  · -- A report has the kind and the target of the destination, as they are read.
    have hread := congrArg (Option.map fun r : DestinationReport => (r.kind, r.target)) hreport
    rw [Option.map_map, Option.map_map] at hread
    rw [hrecordEq]
    exact hread
  · obtain ⟨inner, hmem⟩ := hcontent o ho
    exact (h.ofPosition_eq hmem).1

end Account.Describes

/-! ### Writing what was set -/

/-- Finishes the buffer with what `step` writes as its root, and takes the data. -/
def Build.finishedBy (op : Operation) (step : Build Offset) : Build Bytes := do
  Build.finish (← step)
  Build.finishedData op

/-- Writing an envelope slot by slot goes through, whatever is set and in whatever order. -/
private theorem writes_settings {forceDefaults : Bool} {a : Account} {s : EnvelopeSettings}
    {fields : List EnvelopeField} (hknown : s.KnownIn a) (hfields : fields.Perm s.fields)
    (op : Operation) :
    Writes forceDefaults a .idle (Build.finishedBy op (Envelope.createFields fields)) 108
      (fun data a' _ => ∃ (d : Draft) (root : Offset), d.written = data ∧ a'.Describes d ∧
        (Stage.finished root).Matches d ∧ a'.Extends a ∧
        (root, .object (recordFields forceDefaults (fields.map EnvelopeField.slot)))
          ∈ a'.items) := by
  have hfit := EnvelopeSettings.slotsFit hknown hfields
  have hwrites : Writes forceDefaults a .idle
      (Build.finishedBy op (Envelope.createFields fields))
      (8 + (16 * (fields.map EnvelopeField.slot).length + (12 + 2 * 4)) + (16 + 0))
      (fun data a' _ => ∃ (d : Draft) (root : Offset), d.written = data ∧ a'.Describes d ∧
        (Stage.finished root).Matches d ∧ a'.Extends a ∧
        (root, .object (recordFields forceDefaults (fields.map EnvelopeField.slot)))
          ∈ a'.items) := by
    rw [Build.finishedBy, Envelope.createFields_eq]
    refine (writes_record (by decide) hfit).bind fun root a₁ stage₁ h₁ => ?_
    obtain ⟨rfl, hext, hroot⟩ := h₁
    refine (writes_finish (Account.knows_of_mem hroot)).bind fun _ a₂ stage₂ h₂ => ?_
    obtain ⟨rfl, rfl⟩ := h₂
    refine (writes_finishedData op).mono (Nat.le_refl _) fun data a₃ stage₃ h₃ => ?_
    obtain ⟨rfl, rfl, d, hdata, hdescribes, hmatches⟩ := h₃
    exact ⟨d, root, hdata, hdescribes, hmatches, hext, hroot⟩
  have hlength := hfit.length_le
  exact hwrites.mono (by omega) fun _ _ _ h => h

/-! ### Envelopes that were created -/

namespace Builder

/-- A content was made of an object of the buffer, or written into it. -/
inductive GaveContent (b : Builder) : ContentRef → Prop
  | ofType {type : ContentType} {offset : Offset} {content : ContentRef}
    (hobject : b.Gave Build.endObject offset) (h : ContentRef.ofType type offset = .ok content) :
    GaveContent b content
  | ofTag {tag : UInt8} {offset : Offset} {content : ContentRef}
    (hobject : b.Gave Build.endObject offset) (h : ContentRef.ofTag tag offset = .ok content) :
    GaveContent b content
  | noMessage {content : ContentRef} (h : b.Gave ContentRef.noMessage content) :
    GaveContent b content
  | success {content : ContentRef} (h : b.Gave ContentRef.success content) : GaveContent b content
  | error {code : UInt16} {category reason : Option String} {content : ContentRef}
    (h : b.Gave (ContentRef.error code category reason) content) : GaveContent b content

private theorem GaveContent.exists_object {b : Builder} {content : ContentRef}
    (h : b.GaveContent content) :
    ∃ a : Account, a.Describes b.draft ∧ ∃ fields, (content.offset, .object fields) ∈ a.items := by
  have htagged {tag : UInt8} {offset : Offset} (hobject : b.Gave Build.endObject offset)
      (h : ContentRef.ofTag tag offset = .ok content) :
      ∃ a : Account, a.Describes b.draft ∧
        ∃ fields, (content.offset, .object fields) ∈ a.items := by
    rw [ContentRef.ofTag] at h
    split at h <;> cases h
    exact hobject.exists_object
  have hwritten (spec : ContentSpec) (h : b.Gave spec.write (.ok content)) :
      ∃ a : Account, a.Describes b.draft ∧
        ∃ fields, (content.offset, .object fields) ∈ a.items := by
    obtain ⟨a, ha, hholds⟩ := h.holds
      (Q := fun forceDefaults a content => a.HoldsTagged forceDefaults spec content)
      (.content spec) (fun _ _ => writes_content spec) fun _ _ _ hext hholds =>
        ⟨hholds.1, hholds.2.1, hholds.2.2.mono hext⟩
    exact ⟨a, ha, hholds.2.2.exists_object⟩
  cases h with
  | ofType hobject h => exact htagged hobject h
  | ofTag hobject h => exact htagged hobject h
  | noMessage h => exact hwritten .noMessage (h.map Except.ok)
  | success h => exact hwritten .success (h.map Except.ok)
  | error h => exact hwritten (.error _ _ _) (h.map Except.ok)

end Builder

/-- A buffer that was finished is described as the builder before it was. -/
private theorem Account.Describes.finish {a : Account} {b b₁ b₂ : Builder} (h : a.Describes b.draft)
    {root : Offset} {op : Operation} {data : Bytes} (hfinish : Build.finish root b = .ok ((), b₁))
    (hdata : Build.finishedData op b₁ = .ok (data, b₂)) :
    b₁.draft.written = data ∧ a.Describes b₁.draft ∧ (Stage.finished root).Matches b₁.draft := by
  have hcall : (Call.finish root).run b = .ok (.done, b₁) :=
    bind_eq_ok_iff.mpr ⟨_, hfinish, rfl⟩
  obtain ⟨-, hle, hphase, hstands⟩ :=
    Draft.stands_of_finish (Builder.perform_of_run h.vtablesWritten hcall)
  obtain ⟨_, -, heq⟩ := bind_eq_ok_iff.mp hdata
  cases heq
  exact ⟨rfl, (h.call hcall).1, hphase, hle, hstands⟩

/-- Reading a content finds fault with its bytes alone where tag and content go together. -/
private theorem Envelope.wire_of_content_eq_error {e : Envelope} {table : Option Table}
    (htable : e.contentAs Table = .ok table) (htag : e.contentType = 0 ↔ table = none)
    {fault : EnvelopeError} (h : e.content = .error fault) : ∃ w, fault = .wire w := by
  cases table with
  | none =>
    rw [content_eq_of_none htable, if_pos (htag.mpr rfl)] at h
    cases h
  | some table =>
    have hne : e.contentType ≠ 0 := fun hzero => Option.some_ne_none _ (htag.mp hzero)
    rw [content_eq htable] at h
    cases htype : ContentType.ofByte e.contentType with
    | error unknown =>
      rw [htype] at h
      cases h
    | ok type =>
      rw [htype] at h
      cases type with
      | none => exact absurd (ContentType.toByte_of_ofByte htype).symm hne
      | noMessage | success => cases h
      | error =>
        cases hread : (Record.ofTable table : Except WireError ErrorContent) with
        | ok error =>
          rw [hread] at h
          cases h
        | error w =>
          rw [hread] at h
          cases h
          exact ⟨w, rfl⟩

/-- **The content of an envelope that was created goes with its tag.** -/
theorem Envelope.wire_of_create {a : Account} {d : Draft} (h : a.Describes d)
    {root : Offset} (hmatches : (Stage.finished root).Matches d) {forceDefaults : Bool}
    {destination : Option Offset} {content : Option ContentRef} {id : Int32}
    (hroot : (root, .object (recordFields forceDefaults (slots destination content id)))
      ∈ a.items)
    (hcontent : ∀ c, content = some c → ∃ fields, (c.offset, .object fields) ∈ a.items)
    {e : Envelope} (he : ofBuffer d.written = .ok e) {fault : EnvelopeError}
    (hfault : e.content = .error fault) : ∃ w, fault = .wire w := by
  have hrootTable : rootTable d.written = .ok (d.tableAt root) :=
    rootTable_of_stands h.used_le hmatches.2.1 hmatches.2.2 (h.ofPosition_eq hroot).2
  obtain rfl : e = ⟨d.tableAt root⟩ := by
    rw [ofBuffer, hrootTable] at he
    exact (envelope_eq_ok_iff.mp he).2.2
  have htag : contentType ⟨d.tableAt root⟩ = (content.map (·.tag)).getD 0 := by
    rw [contentType, h.get_tag hroot]
    rfl
  have htable : contentAs Table ⟨d.tableAt root⟩
      = .ok ((content.map (·.offset)).map d.tableAt) := by
    rw [contentAs, getRecord_table]
    refine h.getTable_record hroot nodup_slots (.tail _ (.head _)) fun o ho => ?_
    obtain ⟨c, hc, rfl⟩ := Option.map_eq_some_iff.mp ho
    exact hcontent c hc
  refine wire_of_content_eq_error htable ?_ hfault
  rw [htag]
  cases content with
  | none => exact iff_of_true rfl rfl
  | some c => exact iff_of_false c.tag_ne_zero (Option.some_ne_none _)

/-! ### What was given out, set and read -/

namespace Builder

variable {b : Builder} {s : EnvelopeSettings} {spec : Option DestinationSpec}

/-- What the slots of an envelope are set to was given out by the steps that write it. -/
structure GaveSettings (b : Builder) (s : EnvelopeSettings) (spec : Option DestinationSpec) :
    Prop where
  destination : Option.Rel (fun spec offset => b.Gave (Destination.create spec.kind spec.target)
    offset) spec s.destination
  content : ∀ o, s.content = some o → b.Gave Build.endObject o

/-- One account tells of all that the slots are set to. -/
private theorem GaveSettings.exists_account (h : b.GaveSettings s spec) (hreached : b.Reached)
    (hidle : b.phase = .idle) :
    ∃ a : Account, a.Describes b.draft ∧
      Option.Rel (a.HoldsDestination b.forceDefaults) spec s.destination ∧
      ∀ o, s.content = some o → ∃ fields, (o, .object fields) ∈ a.items := by
  have hdestination : ∃ a : Account, a.Describes b.draft ∧
      Option.Rel (a.HoldsDestination b.forceDefaults) spec s.destination := by
    have hrel := h.destination
    revert hrel
    cases spec <;> cases s.destination <;> intro hrel <;> cases hrel
    case none.none =>
      obtain ⟨a, ha⟩ := hreached.exists_account
      exact ⟨a, ha, .none⟩
    case some.some spec offset hgave =>
      obtain ⟨a, ha, hholds⟩ := hgave.holds
        (Q := fun forceDefaults a offset => a.HoldsDestination forceDefaults spec offset)
        (.destination spec) (fun _ _ => writes_destination spec) fun _ _ _ hext hholds =>
          hholds.mono hext
      exact ⟨a, ha, .some hholds⟩
  obtain ⟨a, ha, hdestination⟩ := hdestination
  obtain ⟨a', ha', hcontent⟩ :=
    hreached.exists_account_of_some fun o ho => (h.content o ho).exists_object
  refine ⟨_, ha.both ha' hidle, ?_, fun o ho => ?_⟩
  · exact optionRel_mono (fun _ _ hholds => hholds.mono (List.subset_append_left _ _)) hdestination
  · obtain ⟨fields, hmem⟩ := hcontent o ho
    exact ⟨fields, List.mem_append_right _ hmem⟩

/-- Settings that were given out can be written and are read back. -/
private theorem GaveSettings.fits (h : b.GaveSettings s spec) (hreached : b.Reached)
    (hidle : b.phase = .idle) {fields : List EnvelopeField} (hfields : fields.Perm s.fields)
    (op : Operation) :
    Fits (b.used + 108)
      (fun p => ∃ e, Envelope.ofBuffer p.1 = .ok e ∧ s.ReadFrom spec p.1 e)
      (Build.finishedBy op (Envelope.createFields fields) b) := by
  obtain ⟨a, ha, hdestination, hcontent⟩ := h.exists_account hreached hidle
  have hknown : s.KnownIn a := by
    refine ⟨fun o ho => ?_, hcontent⟩
    rw [ho] at hdestination
    cases hdestination with
    | some hholds =>
      obtain ⟨name, -, hmem⟩ := hholds
      exact ⟨_, hmem⟩
  have hready : b.draft.Ready b.forceDefaults a .idle b.used :=
    ⟨ha, rfl, hidle, (used_draft b).le⟩
  refine (writes_settings hknown hfields op _ b hready).mono (Nat.le_refl _) fun p _ hp => ?_
  obtain ⟨a', stage, ⟨d, root, hdata, hdescribes, hmatches, hext, hroot⟩, -⟩ := hp
  rw [← hdata]
  refine hdescribes.exists_envelope hmatches hfields hroot ?_ fun o ho => ?_
  · exact optionRel_mono (fun _ _ hholds => hholds.mono hext) hdestination
  · obtain ⟨fields, hmem⟩ := hcontent o ho
    exact ⟨fields, hext hmem⟩

/-- An envelope that was created from a content, or from none, has both tag and content or neither,
so that its content may be malformed but is never without the other. -/
private theorem wire_of_finishedBy_create (hreached : b.Reached) {destination : Option Offset}
    {content : Option ContentRef} {id : Int32} (hcontent : ∀ c, content = some c → b.GaveContent c)
    {op : Operation} {data : Bytes} {after : Builder}
    (hrun : Build.finishedBy op (Envelope.create destination content id) b = .ok (data, after))
    {e : Envelope} (he : Envelope.ofBuffer data = .ok e) {fault : EnvelopeError}
    (hfault : e.content = .error fault) : ∃ w, fault = .wire w := by
  obtain ⟨⟨root, b₁⟩, hcreate, hrest⟩ := bind_eq_ok_iff.mp hrun
  obtain ⟨⟨_, b₂⟩, hfinish, hdata⟩ := bind_eq_ok_iff.mp hrest
  rw [Envelope.create_eq] at hcreate
  obtain ⟨a, ha, hknown⟩ :=
    hreached.exists_account_of_some fun c hc => (hcontent c hc).exists_object
  obtain ⟨a₁, ha₁, hext, hroot⟩ := ha.writeRecord hcreate
  obtain ⟨hwritten, ha₂, hmatches⟩ := ha₁.finish hfinish hdata
  rw [← hwritten] at he
  refine Envelope.wire_of_create ha₂ hmatches hroot (fun c hc => ?_) he hfault
  obtain ⟨fields, hmem⟩ := hknown c hc
  exact ⟨fields, hext hmem⟩

end Builder

/-- **What is set in the slots of an envelope is what is read.** Take any builder that calls have
led to. If it is idle, an envelope may be written with any of the slots set, in any order, to any
tag and number, to a destination and to an object that were given out earlier: there is room for it
unless the buffer is nearly full, and the finished buffer is accepted and reads as was set. An
envelope that is created with a content, whatever its destination, never has the tag without the
content or the content without the tag. -/
theorem Envelope.reads_settings {b : Builder} (hreached : b.Reached) (op : Operation) :
    (∀ s fields spec, b.phase = .idle → b.GaveSettings s spec → fields.Perm s.fields →
      (∀ failure, Build.finishedBy op (createFields fields) b = .error failure →
        failure.isLimit = true ∧ maxBufferSize < b.used + 108) ∧
      ∀ data after, Build.finishedBy op (createFields fields) b = .ok (data, after) →
        ∃ e, ofBuffer data = .ok e ∧ s.ReadFrom spec data e) ∧
    ∀ destination content id, (∀ c, content = some c → b.GaveContent c) →
      ∀ data after, Build.finishedBy op (create destination content id) b = .ok (data, after) →
        ∀ e, ofBuffer data = .ok e → ∀ tag,
          e.content ≠ .error (.missingContent tag) ∧ e.content ≠ .error .untaggedContent := by
  refine ⟨fun s fields spec hidle hgave hfields => ?_, ?_⟩
  · have hfits := hgave.fits hreached hidle hfields op
    refine ⟨fun failure hrun => ?_, fun data after hrun => ?_⟩
    · rw [hrun] at hfits
      exact hfits
    · rw [hrun] at hfits
      exact hfits
  · intro destination content id hcontent data after hrun e he tag
    refine ⟨fun hfault => ?_, fun hfault => ?_⟩
    all_goals
      obtain ⟨w, hw⟩ := Builder.wire_of_finishedBy_create hreached hcontent hrun he hfault
      cases hw

/-- Writes the destination of a piece of news and an object without fields. -/
def writeNews : Build (Offset × Offset) := do
  let destination ← Destination.create .topic (some "news")
  let content ← createEmpty
  return (destination, content)

theorem Envelope.reads_settings_news :
    ∃ b, writeNews (Builder.withOptions ⟨16, false⟩) = .ok ((⟨28⟩, ⟨44⟩), b) ∧
      (∃ data after e, Build.finishedBy .finishedData
          (createFields [.contentType 9, .content ⟨44⟩, .destination ⟨28⟩]) b = .ok (data, after) ∧
        ofBuffer data = .ok e ∧
        EnvelopeSettings.ReadFrom ⟨some ⟨28⟩, some 9, some ⟨44⟩, none⟩
          (some ⟨.topic, some "news"⟩) data e) ∧
      ∃ data after e, Build.finishedBy .takeFinishedData
          (create (some ⟨28⟩) (some ⟨3, ⟨44⟩, by decide⟩) 7) b = .ok (data, after) ∧
        ofBuffer data = .ok e ∧ ∀ tag,
          e.content ≠ .error (.missingContent tag) ∧ e.content ≠ .error .untaggedContent := by
  obtain ⟨⟨offsets, b⟩, hnews, htest⟩ := exists_ok_of_any
    (x := writeNews (Builder.withOptions ⟨16, false⟩))
    (p := fun r => decide (r.1 = (⟨28⟩, ⟨44⟩)) && decide (r.2.phase = .idle) &&
      (Build.finishedBy .finishedData
        (createFields [.contentType 9, .content ⟨44⟩, .destination ⟨28⟩]) r.2).toOption.isSome &&
      (Build.finishedBy .takeFinishedData
        (create (some ⟨28⟩) (some ⟨3, ⟨44⟩, by decide⟩) 7) r.2).toOption.any
          fun q => (ofBuffer q.1).toOption.isSome)
    (by decide +kernel)
  simp only [Bool.and_eq_true, decide_eq_true_eq] at htest
  obtain ⟨⟨⟨rfl, hidle⟩, hfields⟩, hcreated⟩ := htest
  -- The destination and the object were given out by the steps that wrote them.
  obtain ⟨⟨destination, b₁⟩, hdestination, hrest⟩ := bind_eq_ok_iff.mp hnews
  obtain ⟨⟨content, b₂⟩, hcontent, heq⟩ := bind_eq_ok_iff.mp hrest
  obtain ⟨⟨_, b₃⟩, hstart, hend⟩ := bind_eq_ok_iff.mp hcontent
  cases heq
  have hreached₀ : (Builder.withOptions ⟨16, false⟩).Reached := ⟨_, [], [], rfl⟩
  have hreached₁ := hreached₀.after (.destination ⟨.topic, some "news"⟩) hdestination
  have hreached₃ := hreached₁.after (.startObject 0) hstart
  have hreached := hreached₃.after .endObject hend
  have hgaveContent : b.Gave Build.endObject ⟨44⟩ := hreached₃.gave hend
  have hgaveDestination : b.Gave (Destination.create .topic (some "news")) ⟨28⟩ :=
    ((hreached₀.gave hdestination).after (.startObject 0) hstart).after .endObject hend
  have hgave :
      b.GaveSettings ⟨some ⟨28⟩, some 9, some ⟨44⟩, none⟩ (some ⟨.topic, some "news"⟩) := by
    refine ⟨.some hgaveDestination, fun o ho => ?_⟩
    cases ho
    exact hgaveContent
  refine ⟨b, hnews, ?_, ?_⟩
  · obtain ⟨⟨data, after⟩, hrun, -⟩ := exists_ok_of_any (p := fun _ => true)
      (Option.any_true.trans hfields)
    obtain ⟨e, he, hread⟩ := ((reads_settings hreached .finishedData).1 _ _ _ hidle hgave
      (by decide)).2 data after hrun
    exact ⟨data, after, e, hrun, he, hread⟩
  · obtain ⟨⟨data, after⟩, hrun, hsome⟩ := exists_ok_of_any hcreated
    obtain ⟨e, he, -⟩ := exists_ok_of_any (p := fun _ => true) (Option.any_true.trans hsome)
    refine ⟨data, after, e, hrun, he, ?_⟩
    refine (reads_settings hreached .takeFinishedData).2 _ _ _ (fun c hc => ?_) data after hrun e he
    cases hc
    exact .ofType hgaveContent (show ContentRef.ofType .success ⟨44⟩ = .ok _ from rfl)

end EnvelopeWire
