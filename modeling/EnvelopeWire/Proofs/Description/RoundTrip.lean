import EnvelopeWire.Proofs.Description.Encode
import EnvelopeWire.Proofs.Reading.RoundTrip
import EnvelopeWire.Report.Basic

/-!
# Reporting on what a description encodes

A report on the buffer that a description stands for says what the description says: the same
number, the same destination and the same content, with absent and empty texts kept apart, and the
slots of the envelope are those for which something was described.

* `Account.Describes.get_record`, `Account.Describes.getString_record`,
  `Account.Describes.getTable_record`: what the slots of a record read as.
* `Description.StandsIn.exists_report`: what a report says where an envelope stands.
-/

namespace EnvelopeWire

/-! ### Reading records -/

/-- The table that `offset` names in what a draft has written. -/
def Draft.tableAt (d : Draft) (offset : Offset) : Table :=
  { buffer := d.written, position := d.written.length - offset.value }

namespace Account.Describes

variable {a : Account} {d : Draft} {forceDefaults : Bool} {offset : Offset} {slot : UInt16}
  {slots : List (UInt16 × RecordSlot)}

/-- A scalar reads as itself, also where it was left out. -/
theorem get_of_slot (h : a.Describes d) {fields : List Field}
    (hmem : (offset, .object fields) ∈ a.items) {type : ScalarType} {value default : type.Value}
    (hvalue : valueIn fields slot
      = RecordSlot.value forceDefaults (.scalar type value default))
    (hagrees : type.agrees value default = true → value = default) :
    (d.tableAt offset).get type slot default = .ok value := by
  rw [RecordSlot.value] at hvalue
  split at hvalue
  case isTrue hleft =>
    -- What is left out equals the default that the reader gives in its place.
    rw [hagrees (Bool.and_eq_true_iff.mp hleft).1]
    exact h.get_of_absent hmem hvalue type default
  case isFalse hwritten => exact h.get_of_scalar hmem hvalue default

/-- A reference to an object, where there is one, leads to the table of the object. -/
theorem getTable_of_slot (h : a.Describes d) {fields : List Field}
    (hmem : (offset, .object fields) ∈ a.items) {target : Option Offset}
    (hvalue : valueIn fields slot = target.map .reference)
    (htarget : ∀ o, target = some o → ∃ fields, (o, .object fields) ∈ a.items) :
    (d.tableAt offset).getTable slot = .ok (target.map d.tableAt) := by
  cases target with
  | none => exact h.getWith_of_absent hmem hvalue _
  | some target =>
    obtain ⟨fields, hitem⟩ := htarget target rfl
    exact h.refersTo hmem hvalue hitem

/-- A scalar of a record reads as itself, also where it was left out. -/
theorem get_record (h : a.Describes d)
    (hmem : (offset, .object (recordFields forceDefaults slots)) ∈ a.items)
    (hnodup : (slots.map Prod.fst).Nodup) {type : ScalarType} {value default : type.Value}
    (hslot : (slot, .scalar type value default) ∈ slots)
    (hagrees : type.agrees value default = true → value = default) :
    (d.tableAt offset).get type slot default = .ok value :=
  h.get_of_slot hmem (valueIn_recordFields hnodup hslot) hagrees

/-- A text of a record reads as itself, absent where it is absent. -/
theorem getString_record (h : a.Describes d)
    (hmem : (offset, .object (recordFields forceDefaults slots)) ∈ a.items)
    (hnodup : (slots.map Prod.fst).Nodup) {text : Option String} {name : Option Offset}
    (hslot : (slot, .ofReference name) ∈ slots) (htext : a.HoldsText text name) :
    (d.tableAt offset).getString slot = .ok text := by
  have hvalue : valueIn (recordFields forceDefaults slots) slot = name.map .reference :=
    (valueIn_recordFields hnodup hslot).trans (RecordSlot.value_ofReference _ _)
  cases htext with
  | none => exact h.getWith_of_absent hmem hvalue _
  | some hitem => exact h.refersTo hmem hvalue hitem

/-- A reference of a record to an object leads to the table of the object. -/
theorem getTable_record (h : a.Describes d)
    (hmem : (offset, .object (recordFields forceDefaults slots)) ∈ a.items)
    (hnodup : (slots.map Prod.fst).Nodup) {target : Option Offset}
    (hslot : (slot, .ofReference target) ∈ slots)
    (htarget : ∀ o, target = some o → ∃ fields, (o, .object fields) ∈ a.items) :
    (d.tableAt offset).getTable slot = .ok (target.map d.tableAt) :=
  h.getTable_of_slot hmem
    ((valueIn_recordFields hnodup hslot).trans (RecordSlot.value_ofReference _ _)) htarget

end Account.Describes

/-- A slot is viewed as a record where its table is one. -/
private theorem Table.getRecord_eq {ρ : Type} [Record ρ] {t : Table} {slot : UInt16}
    {target : Option Table} {f : Table → ρ} (h : t.getTable slot = .ok target)
    (hf : ∀ table, target = some table → Record.ofTable table = .ok (f table)) :
    t.getRecord ρ slot = .ok (target.map f) := by
  rw [getRecord, h]
  cases target with
  | none => rfl
  | some table =>
    change (Record.ofTable table >>= fun record => pure (some record)) = _
    rw [hf table rfl]
    rfl

/-! ### Destinations -/

/-- What is reported about a destination that is described. -/
def DestinationSpec.report (spec : DestinationSpec) : DestinationReport where
  kind := some spec.kind
  kindByte := spec.kind.toByte
  target := spec.target

/-- A destination that reads as the described one is reported as such. -/
private theorem DestinationReport.ofDestination_eq {t : Table} {kind : DestinationKind}
    {target : Option String} (hkind : t.get .u8 0 (0 : UInt8) = .ok kind.toByte)
    (htarget : t.getString 1 = .ok target) :
    Record.ofTable t = .ok (Destination.mk t) ∧
      ofDestination ⟨t⟩ = DestinationSpec.report ⟨kind, target⟩ := by
  have hbyte : Destination.kindByte ⟨t⟩ = kind.toByte := by
    rw [Destination.kindByte, hkind]
    rfl
  refine ⟨?_, ?_⟩
  · change (t.get .u8 0 (0 : UInt8) >>= fun _ => t.getString 1 >>= fun _ => _) = _
    rw [hkind, htarget]
    rfl
  · rw [ofDestination, Destination.kind, hbyte, DestinationKind.ofByte_toByte, Destination.target,
      htarget]
    rfl

/-- A destination that was written is found and reported as described. -/
private theorem Account.Describes.report_destination {a : Account} {d : Draft} (h : a.Describes d)
    {forceDefaults : Bool} {spec : DestinationSpec} {offset : Offset}
    (hholds : a.HoldsDestination forceDefaults spec offset) :
    Record.ofTable (d.tableAt offset) = .ok (Destination.mk (d.tableAt offset)) ∧
      DestinationReport.ofDestination ⟨d.tableAt offset⟩ = spec.report := by
  obtain ⟨name, hname, hmem⟩ := hholds
  have hnodup : ((Destination.slots spec.kind name).map Prod.fst).Nodup := by
    simp [Destination.slots]
  refine DestinationReport.ofDestination_eq ?_ ?_
  · exact h.get_record hmem hnodup (.tail _ (.head _)) of_decide_eq_true
  · exact h.getString_record hmem hnodup (.head _) hname

/-! ### Contents -/

/-- What is reported about a content that is described. An object without fields that is tagged as
an error is one with nothing in it. -/
def ContentSpec.ReportedAs : ContentSpec → ContentReport → Prop
  | noMessage, report => report = .noMessage
  | success, report => report = .success
  | error code category reason, report => report = .error code category reason
  | raw tag, report =>
    if tag = 1 then report = .noMessage
    else if tag = 2 then report = .error 0 none none
    else if tag = 3 then report = .success
    else ∃ position, report = .other tag position

/-- An error record that reads as the described one is reported as such. -/
private theorem ContentReport.ofContent_error {t : Table} {code : UInt16}
    {category reason : Option String} (hcode : t.get .u16 0 (0 : UInt16) = .ok code)
    (hcategory : t.getString 1 = .ok category) (hreason : t.getString 2 = .ok reason) :
    Record.ofTable t = .ok (ErrorContent.mk t) ∧
      ofContent (.error ⟨t⟩) = .error code category reason := by
  refine ⟨?_, ?_⟩
  · change (t.get .u16 0 (0 : UInt16) >>= fun _ => t.getString 1 >>= fun _ =>
      t.getString 2 >>= fun _ => _) = _
    rw [hcode, hcategory, hreason]
    rfl
  · rw [ofContent, ErrorContent.code, hcode, ErrorContent.category, hcategory, ErrorContent.reason,
      hreason]
    rfl

/-- A content that is tagged as an error is reported with what its table reads as. -/
private theorem Envelope.exists_content_error {e : Envelope} {table : Table} {code : UInt16}
    {category reason : Option String} (htable : e.contentAs Table = .ok (some table))
    (htag : e.contentType = 2) (hcode : table.get .u16 0 (0 : UInt16) = .ok code)
    (hcategory : table.getString 1 = .ok category) (hreason : table.getString 2 = .ok reason) :
    ∃ c, e.content = .ok c ∧ ContentReport.ofContent c = .error code category reason := by
  obtain ⟨hfound, hreport⟩ := ContentReport.ofContent_error hcode hcategory hreason
  refine ⟨.error ⟨table⟩, ?_, hreport⟩
  rw [Envelope.content_eq htable, htag]
  change (Envelope.checked (Record.ofTable table)).map Content.error = _
  rw [hfound]
  rfl

/-- A content that was written is found under its tag and reported as described. -/
private theorem Account.Describes.report_content {a : Account} {d : Draft} (h : a.Describes d)
    {forceDefaults : Bool} {spec : ContentSpec} {content : ContentRef}
    (hholds : a.HoldsReference forceDefaults spec content) {e : Envelope}
    (htable : e.contentAs Table = .ok (some (d.tableAt content.offset)))
    (htag : e.contentType = content.tag) :
    ∃ c, e.content = .ok c ∧ spec.ReportedAs (ContentReport.ofContent c) := by
  obtain ⟨hspec, hmem⟩ := hholds
  rw [hspec] at htag
  have hcontent := Envelope.content_eq htable
  rw [htag] at hcontent
  cases spec with
  | noMessage => exact ⟨.noMessage, hcontent, rfl⟩
  | success => exact ⟨.success, hcontent, rfl⟩
  | error code category reason =>
    obtain ⟨category', reason', hcategory, hreason, hitem⟩ := hmem
    have hnodup : ((ErrorContent.slots code category' reason').map Prod.fst).Nodup := by
      simp [ErrorContent.slots]
    exact Envelope.exists_content_error htable htag
      (h.get_record hitem hnodup (.tail _ (.tail _ (.head _))) of_decide_eq_true)
      (h.getString_record hitem hnodup (.tail _ (.head _)) hcategory)
      (h.getString_record hitem hnodup (.head _) hreason)
  | raw tag =>
    have hzero : tag ≠ 0 := fun heq => content.tag_ne_zero (hspec.trans heq)
    by_cases hone : tag = 1
    · subst hone
      exact ⟨.noMessage, hcontent, rfl⟩
    by_cases htwo : tag = 2
    · -- An object without fields reads as an error with code zero and no texts.
      subst htwo
      exact Envelope.exists_content_error htable htag (h.get_of_absent hmem rfl .u16 (0 : UInt16))
        (h.getWith_of_absent hmem rfl _) (h.getWith_of_absent hmem rfl _)
    by_cases hthree : tag = 3
    · subst hthree
      exact ⟨.success, hcontent, rfl⟩
    have hunknown : ContentType.ofByte tag = .error (.unknownContentType tag) := by
      rw [ContentType.ofByte, if_neg hzero, if_neg hone, if_neg htwo, if_neg hthree]
    rw [ContentSpec.tag, hunknown] at hcontent
    refine ⟨.other tag (d.tableAt content.offset), hcontent, ?_⟩
    rw [ContentSpec.ReportedAs, if_neg hone, if_neg htwo, if_neg hthree]
    exact ⟨_, rfl⟩

/-! ### Envelopes -/

namespace Description

/-- The slots of an envelope for which something is described, by number and name. -/
def slots (forceDefaults : Bool) (d : Description) : List (UInt16 × String) :=
  (if d.destination.isSome then [(0, "destination")] else [])
    ++ ((if d.content.isSome then [(1, "content_type"), (2, "content")] else [])
      ++ if d.id != 0 || forceDefaults then [(3, "id")] else [])

/-- What is reported about an envelope that is described. -/
structure ReportedAs (forceDefaults : Bool) (d : Description) (report : Report) : Prop where
  id : report.id = d.id
  destination : report.destination = d.destination.map DestinationSpec.report
  contentType : report.contentType = (d.content.map ContentSpec.tag).getD 0
  content : d.content.elim (report.content = .none) fun spec => spec.ReportedAs report.content
  slots : report.vtable.slots.map (fun s => (s.slot, s.name)) = d.slots forceDefaults

end Description

section Envelope

variable {forceDefaults : Bool} {destination : Option Offset} {content : Option ContentRef}
  {id : Int32}

/-- The slots of an envelope are four different ones. -/
theorem Envelope.nodup_slots :
    ((Envelope.slots destination content id).map Prod.fst).Nodup := by
  simp [Envelope.slots]

/-- The slots of an envelope in which something is written. -/
private theorem Envelope.filter_isSome_valueIn (forceDefaults : Bool) :
    ((List.range 4).filter fun i => (valueIn (recordFields forceDefaults
        (slots destination content id)) (UInt16.ofNat i)).isSome).map UInt16.ofNat
      = (if destination.isSome then [0] else [])
        ++ ((if content.isSome then [1, 2] else [])
          ++ if id != 0 || forceDefaults then [3] else []) := by
  have hvalue (i : Nat) {s : RecordSlot}
      (hslot : (UInt16.ofNat i, s) ∈ slots destination content id) :
      valueIn (recordFields forceDefaults (slots destination content id)) (UInt16.ofNat i)
        = s.value forceDefaults := valueIn_recordFields nodup_slots hslot
  have hdestination : (valueIn (recordFields forceDefaults (slots destination content id))
      (UInt16.ofNat 0)).isSome = destination.isSome := by
    rw [hvalue 0 (.tail _ (.tail _ (.head _))), RecordSlot.value_ofReference, Option.isSome_map]
  have htag : (valueIn (recordFields forceDefaults (slots destination content id))
      (UInt16.ofNat 1)).isSome = content.isSome := by
    rw [hvalue 1 (.tail _ (.tail _ (.tail _ (.head _))))]
    cases content with
    | none => rfl
    | some content =>
      -- The tag is never left out, because it is not zero.
      have hne : ScalarType.u8.agrees content.tag (0 : UInt8) = false :=
        decide_eq_false content.tag_ne_zero
      rw [ContentRef.tagSlot, RecordSlot.value, hne]
      rfl
  have hcontent : (valueIn (recordFields forceDefaults (slots destination content id))
      (UInt16.ofNat 2)).isSome = content.isSome := by
    rw [hvalue 2 (.tail _ (.head _)), RecordSlot.value_ofReference, Option.isSome_map,
      Option.isSome_map]
  have hid : (valueIn (recordFields forceDefaults (slots destination content id))
      (UInt16.ofNat 3)).isSome = (id != 0 || forceDefaults) := by
    rw [hvalue 3 (.head _), RecordSlot.value]
    by_cases hzero : id = 0 <;> cases forceDefaults <;> simp [ScalarType.agrees, hzero]
  have hrange : List.range 4 = [0, 1, 2, 3] := rfl
  simp only [hrange, List.filter_cons, List.filter_nil, hdestination, htag, hcontent, hid]
  cases destination.isSome <;> cases content.isSome <;> cases (id != 0 || forceDefaults) <;> rfl

/-- An envelope is read where each of its slots is. -/
theorem Envelope.ofBuffer_eq {buffer : Bytes} {t : Table} {destination : Option Destination}
    {content : Option Table} {tag : UInt8} (hroot : rootTable buffer = .ok t)
    (hdestination : t.getRecord Destination 0 = .ok destination)
    (htag : t.get .u8 1 (0 : UInt8) = .ok tag) (hcontent : t.getTable 2 = .ok content)
    (hid : t.get .i32 3 (0 : Int32) = .ok id) :
    ofBuffer buffer = .ok ⟨t⟩ ∧ Envelope.destination ⟨t⟩ = destination ∧
      contentType ⟨t⟩ = tag ∧ contentAs Table ⟨t⟩ = .ok content ∧ Envelope.id ⟨t⟩ = id := by
  refine ⟨?_, ?_, ?_, ?_, ?_⟩
  · rw [ofBuffer, hroot]
    change (t.getRecord Destination 0 >>= fun _ => t.get .u8 1 (0 : UInt8) >>= fun _ =>
      t.getTable 2 >>= fun _ => t.get .i32 3 (0 : Int32) >>= fun _ => _) = _
    rw [hdestination, htag, hcontent, hid]
    rfl
  · rw [Envelope.destination, hdestination]
    rfl
  · rw [contentType, htag]
    rfl
  · rw [contentAs, Table.getRecord_eq hcontent fun table _ => rfl]
    exact congrArg Except.ok (congrFun Option.map_id_fun' content)
  · rw [Envelope.id, hid]
    rfl

/-- The tag of the content is read from slot 1, and is zero without a content. -/
theorem Account.Describes.get_tag {a : Account} {d : Draft} (h : a.Describes d) {root : Offset}
    (hmem : (root, .object (recordFields forceDefaults
      (Envelope.slots destination content id))) ∈ a.items) :
    (d.tableAt root).get .u8 1 (0 : UInt8) = .ok ((content.map (·.tag)).getD 0) := by
  have hslot : (1, ContentRef.tagSlot content) ∈ Envelope.slots destination content id :=
    .tail _ (.tail _ (.tail _ (.head _)))
  cases content with
  | none => exact h.get_of_absent hmem (valueIn_recordFields Envelope.nodup_slots hslot) _ _
  | some content => exact h.get_record hmem Envelope.nodup_slots hslot of_decide_eq_true

/-- The slots that are reported of a vtable are those that it lists, with their names. -/
private theorem VTableReport.map_slots (v : VTable) :
    (ofVTable v).slots.map (fun s => (s.slot, s.name))
      = (v.presentSlots.map Prod.fst).map fun slot => (slot, slotName slot) := by
  rw [ofVTable, List.map_map, List.map_map]
  rfl

/-- The slots that are reported of the vtable of an envelope. -/
private theorem Envelope.map_slots_ofVTable (forceDefaults : Bool) (position : Nat) :
    (VTableReport.ofVTable ⟨vtableOf (recordFields forceDefaults
        (slots destination content id)), position⟩).slots.map (fun s => (s.slot, s.name))
      = (if destination.isSome then [(0, "destination")] else [])
        ++ ((if content.isSome then [(1, "content_type"), (2, "content")] else [])
          ++ if id != 0 || forceDefaults then [(3, "id")] else []) := by
  have hlength : objectLength (recordFields forceDefaults (slots destination content id))
      ≤ 65535 := by
    have hle := objectLength_le (recordFields forceDefaults (slots destination content id))
    have hfields : (recordFields forceDefaults (slots destination content id)).length ≤ 4 :=
      length_recordFields _ _
    omega
  have hcovered : covered (recordFields forceDefaults (slots destination content id)) ≤ 4 :=
    covered_recordFields_le (by simp [slots])
  have hslots := presentSlots_vtableOf position hlength hcovered (by decide)
  rw [filter_isSome_valueIn] at hslots
  rw [VTableReport.map_slots, hslots]
  cases destination.isSome <;> cases content.isSome <;> cases (id != 0 || forceDefaults) <;> rfl

end Envelope

namespace Account.Describes

variable {a : Account} {d : Draft} {forceDefaults : Bool} {root : Offset}
  {destination : Option Offset} {content : Option ContentRef} {id : Int32}

/-- The destination that a slot refers to is found and reported as described. -/
theorem getRecord_of_slot (h : a.Describes d) {fields : List Field}
    (hmem : (root, .object fields) ∈ a.items) {slot : UInt16}
    (hvalue : valueIn fields slot = destination.map .reference) {spec : Option DestinationSpec}
    (hholds : Option.Rel (a.HoldsDestination forceDefaults) spec destination) :
    ∃ record, (d.tableAt root).getRecord Destination slot = .ok record ∧
      record.map .ofDestination = spec.map DestinationSpec.report := by
  cases hholds with
  | none =>
    have htable := h.getTable_of_slot hmem hvalue fun _ ho => nomatch ho
    refine ⟨none, Table.getRecord_eq (f := Destination.mk) htable ?_, rfl⟩
    exact fun _ ht => nomatch ht
  | @some spec offset hholds =>
    have htable := h.getTable_of_slot hmem hvalue fun o ho => by
      obtain ⟨name, -, hitem⟩ := hholds
      cases ho
      exact ⟨_, hitem⟩
    obtain ⟨hrecord, hreport⟩ := h.report_destination hholds
    refine ⟨_, Table.getRecord_eq (f := Destination.mk) htable fun table ht => ?_,
      congrArg some hreport⟩
    cases ht
    exact hrecord

/-- The destination of an envelope is found and reported as described. -/
private theorem getRecord_destination (h : a.Describes d)
    (hmem : (root, .object (recordFields forceDefaults
      (Envelope.slots destination content id))) ∈ a.items) {spec : Option DestinationSpec}
    (hholds : Option.Rel (a.HoldsDestination forceDefaults) spec destination) :
    ∃ record, (d.tableAt root).getRecord Destination 0 = .ok record ∧
      record.map .ofDestination = spec.map DestinationSpec.report := by
  have hvalue : valueIn (recordFields forceDefaults (Envelope.slots destination content id)) 0
      = (RecordSlot.ofReference destination).value forceDefaults :=
    valueIn_recordFields Envelope.nodup_slots (.tail _ (.tail _ (.head _)))
  rw [RecordSlot.value_ofReference] at hvalue
  exact h.getRecord_of_slot hmem hvalue hholds

/-- The table of the content of an envelope is found. -/
private theorem getTable_content (h : a.Describes d)
    (hmem : (root, .object (recordFields forceDefaults
      (Envelope.slots destination content id))) ∈ a.items) {spec : Option ContentSpec}
    (hholds : Option.Rel (a.HoldsReference forceDefaults) spec content) :
    (d.tableAt root).getTable 2 = .ok ((content.map (·.offset)).map d.tableAt) := by
  refine h.getTable_record hmem Envelope.nodup_slots (.tail _ (.head _)) fun o ho => ?_
  cases hholds with
  | none => cases ho
  | some hholds =>
    cases ho
    exact hholds.2.exists_object

/-- The content of an envelope is reported as described. -/
private theorem exists_content (h : a.Describes d) {spec : Option ContentSpec}
    (hholds : Option.Rel (a.HoldsReference forceDefaults) spec content) {e : Envelope}
    (htable : e.contentAs Table = .ok ((content.map (·.offset)).map d.tableAt))
    (htag : e.contentType = (content.map (·.tag)).getD 0) :
    ∃ c, e.content = .ok c ∧ spec.elim (ContentReport.ofContent c = .none) fun spec =>
      spec.ReportedAs (ContentReport.ofContent c) := by
  cases hholds with
  | none =>
    refine ⟨.none, ?_, rfl⟩
    rw [Envelope.content, htable]
    change (if e.contentType = 0 then _ else _) = _
    have hzero : e.contentType = 0 := htag
    rw [if_pos hzero]
    rfl
  | some hholds => exact h.report_content hholds htable htag

end Account.Describes

/-- What is related is there on both sides or on neither. -/
private theorem isSome_eq_of_rel {α β : Type} {R : α → β → Prop} {x : Option α} {y : Option β}
    (h : Option.Rel R x y) : x.isSome = y.isSome := by
  cases h <;> rfl

/-- **An envelope that stands in a buffer is reported as described.** -/
theorem Description.StandsIn.exists_report {forceDefaults : Bool} {d : Description} {data : Bytes}
    (h : d.StandsIn forceDefaults data) :
    ∃ report, Report.ofBuffer data = .ok report ∧ d.ReportedAs forceDefaults report := by
  obtain ⟨a, draft, root, rfl, hdescribes, hmatches, destination, content, hdestination, hcontent,
    hroot⟩ := h
  have hrootTable : rootTable draft.written = .ok (draft.tableAt root) :=
    rootTable_of_stands hdescribes.used_le hmatches.2.1 hmatches.2.2
      (hdescribes.ofPosition_eq hroot).2
  obtain ⟨record, hrecord, hto⟩ := hdescribes.getRecord_destination hroot hdestination
  have hid : (draft.tableAt root).get .i32 3 (0 : Int32) = .ok d.id :=
    hdescribes.get_record hroot Envelope.nodup_slots (.head _) of_decide_eq_true
  obtain ⟨henvelope, hdestinationEq, htype, htable, hidEq⟩ := Envelope.ofBuffer_eq hrootTable
    hrecord (hdescribes.get_tag hroot) (hdescribes.getTable_content hroot hcontent) hid
  obtain ⟨c, hc, hreported⟩ := hdescribes.exists_content hcontent htable htype
  obtain ⟨position, hvtable⟩ : ∃ position, (draft.tableAt root).vtable
      = .ok ⟨vtableOf (recordFields forceDefaults (Envelope.slots destination content d.id)),
          position⟩ := by
    obtain ⟨start, hplace, hstands⟩ := hdescribes.items root _ hroot
    rw [Draft.tableAt, hplace]
    exact hstands.vtable_eq hdescribes.used_le
  refine ⟨{
    bufferLength := draft.written.length
    rootPosition := (draft.tableAt root).position
    vtable := .ofVTable ⟨vtableOf (recordFields forceDefaults
      (Envelope.slots destination content d.id)), position⟩
    destination := (Envelope.destination ⟨draft.tableAt root⟩).map .ofDestination
    contentType := Envelope.contentType ⟨draft.tableAt root⟩
    content := .ofContent c
    id := Envelope.id ⟨draft.tableAt root⟩ }, ?_, hidEq, ?_, ?_, hreported, ?_⟩
  · rw [Report.ofBuffer, henvelope]
    change (Envelope.checked (draft.tableAt root).vtable >>= fun v =>
      ContentReport.ofResult (Envelope.content ⟨draft.tableAt root⟩) >>= fun content => _) = _
    rw [hvtable, hc]
    rfl
  · rw [hdestinationEq]
    exact hto
  · refine htype.trans ?_
    generalize d.content = spec at hcontent
    cases hcontent with
    | none => rfl
    | some hholds => exact hholds.1
  · rw [Envelope.map_slots_ofVTable, Description.slots, isSome_eq_of_rel hdestination,
      isSome_eq_of_rel hcontent]

/-! ### From a description to its report -/

namespace Description

/-- **What a description encodes is reported as described.** Encoding fails only where the content
has the tag that stands for none, or where there is no room for the texts and some 300 bytes. -/
theorem report_of_encode (options : BuilderOptions) (d : Description) :
    match d.encode options with
    | .ok data => d.content ≠ some (.raw 0) ∧
      ∃ report, Report.ofBuffer data = .ok report ∧ d.ReportedAs options.forceDefaults report
    | .error (.content e) => d.content = some (.raw 0) ∧ e = .reservedContentTag
    | .error (.builder failure) => failure.isLimit = true ∧ maxBufferSize < d.textLength + 300 := by
  have hready : (Builder.withOptions options).draft.Ready options.forceDefaults .empty .idle 0 := by
    rw [Builder.draft_withOptions]
    exact ⟨Account.describes_empty _, rfl, rfl, Nat.le_refl 0⟩
  have hwrites := d.writes_description 0 _ hready
  rw [Nat.zero_add] at hwrites
  rw [encode]
  cases hwrite : d.write (Builder.withOptions options) with
  | error failure =>
    rw [hwrite] at hwrites
    exact hwrites
  | ok p =>
    rw [hwrite] at hwrites
    obtain ⟨a, stage, hgives, -⟩ := hwrites
    obtain ⟨result, b⟩ := p
    cases result with
    | error e => exact hgives
    | ok data => exact ⟨hgives.1, hgives.2.exists_report⟩

end Description

end EnvelopeWire
