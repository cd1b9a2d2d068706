import EnvelopeWire.Proofs.Reading.Faithful
import EnvelopeWire.Report.Basic
import Mathlib.Data.List.Basic

/-!
# What a report finds

A report is refused only for malformed bytes: there is no envelope at the root, or its content is
tagged as an error and the table there is none. A tag that does not go with its content is a finding
of the report instead. A report lists the slots of the vtable by going through its entries in order,
where every other reader looks a slot up by its number; the two ways of reading agree, and the place
of a slot in the vtable, which is computed in 16-bit words, is exact for all slots that a vtable can
have.

* `VTable.presentSlots_eq`: the entries in order are those that are found by number.
* `Report.ofBuffer_eq_error_iff`: when there is no report.
* `Report.finds`: what is reported, and when there is a report.
-/

namespace EnvelopeWire

/-! ### Entries -/

namespace VTable

/-- The entry number `i` of those in `bytes`, zero behind the last one. -/
private def entryAt (bytes : Bytes) (i : Nat) : UInt16 :=
  match bytes.drop (2 * i) with
  | low :: high :: _ => ScalarType.u16.decode [low, high]
  | _ => 0

/-- How an entry is listed: not at all if it is zero. -/
def listed (slot : Nat) (offset : UInt16) : Option (UInt16 × UInt16) :=
  if offset = 0 then none else some (UInt16.ofNat slot, offset)

private theorem entryAt_of_le {bytes : Bytes} {i : Nat} (h : bytes.length / 2 ≤ i) :
    entryAt bytes i = 0 := by
  have hshort : (bytes.drop (2 * i)).length < 2 := by
    rw [List.length_drop]
    omega
  rw [entryAt]
  split
  next low high rest hdrop =>
    rw [hdrop, List.length_cons, List.length_cons] at hshort
    omega
  next => rfl

/-- The entry for a slot is found behind the header. -/
private theorem fieldOffset_eq_entryAt (v : VTable) (slot : UInt16) :
    v.fieldOffset slot = entryAt (v.bytes.drop 4) slot.toNat := by
  rw [entryAt, List.drop_drop]
  rfl

/-- An entry and those behind it, listed from `slot` on. -/
private theorem filterMap_listed_cons (slot : Nat) (low high : UInt8) (rest : Bytes) :
    ((List.range ((low :: high :: rest).length / 2)).filterMap fun i =>
        listed (slot + i) (entryAt (low :: high :: rest) i))
      = (listed slot (ScalarType.u16.decode [low, high])).toList
        ++ (List.range (rest.length / 2)).filterMap fun i =>
          listed (slot + 1 + i) (entryAt rest i) := by
  have hlength : (low :: high :: rest).length / 2 = rest.length / 2 + 1 := by
    rw [List.length_cons, List.length_cons]
    omega
  have hrest : (fun i => listed (slot + 1 + i) (entryAt rest i))
      = (fun i => listed (slot + i) (entryAt (low :: high :: rest) i)) ∘ Nat.succ := by
    funext i
    rw [Function.comp_apply, Nat.add_assoc, Nat.add_comm 1]
    rfl
  rw [hlength, List.range_succ_eq_map, hrest, ← List.filterMap_map, List.filterMap_cons]
  have hfirst : listed (slot + 0) (entryAt (low :: high :: rest) 0)
      = listed slot (ScalarType.u16.decode [low, high]) := rfl
  rw [hfirst]
  cases listed slot (ScalarType.u16.decode [low, high]) <;> rfl

private theorem presentFrom_cons (slot : Nat) (low high : UInt8) (rest : Bytes) :
    presentFrom slot (low :: high :: rest)
      = (listed slot (ScalarType.u16.decode [low, high])).toList
        ++ presentFrom (slot + 1) rest := by
  rw [presentFrom, listed]
  split <;> rfl

/-- Going through the entries gives them by number. -/
private theorem presentFrom_eq (slot : Nat) (bytes : Bytes) : presentFrom slot bytes
    = (List.range (bytes.length / 2)).filterMap fun i => listed (slot + i) (entryAt bytes i) :=
  match bytes with
  | low :: high :: rest => by
    rw [presentFrom_cons, filterMap_listed_cons, presentFrom_eq (slot + 1) rest]
  | [] => rfl
  | [low] => by
    rw [List.length_singleton, Nat.div_eq_of_lt Nat.one_lt_two]
    rfl

/-- **The two ways of reading the entries agree**: going through them lists those that are found by
number, in order. -/
theorem presentSlots_eq {v : VTable} (hcount : v.slotCount ≤ 65536) :
    v.presentSlots = (List.range v.slotCount).filterMap fun i =>
      listed i (v.fieldOffset (UInt16.ofNat i)) := by
  have hlength : (v.bytes.drop 4).length / 2 = v.slotCount := by rw [List.length_drop, slotCount]
  rw [presentSlots, presentFrom_eq, hlength]
  refine List.filterMap_congr fun i hi => ?_
  have hslot : (UInt16.ofNat i).toNat = i :=
    UInt16.toNat_ofNat_of_lt' (Nat.lt_of_lt_of_le (List.mem_range.mp hi) hcount)
  rw [Nat.zero_add, fieldOffset_eq_entryAt, hslot]

private theorem listed_eq_some_iff {i : Nat} {offset : UInt16} {entry : UInt16 × UInt16} :
    listed i offset = some entry ↔ offset ≠ 0 ∧ entry = (UInt16.ofNat i, offset) := by
  rw [listed]
  split <;> simp [*, eq_comm]

/-- A slot behind the last entry is absent. -/
private theorem lt_slotCount_of_fieldOffset_ne_zero {v : VTable} {slot : UInt16}
    (h : v.fieldOffset slot ≠ 0) : slot.toNat < v.slotCount := by
  by_contra hge
  have hlength : (v.bytes.drop 4).length / 2 ≤ slot.toNat := by
    rw [List.length_drop]
    exact Nat.le_of_not_lt hge
  exact h ((fieldOffset_eq_entryAt v slot).trans (entryAt_of_le hlength))

/-- A slot is listed with the offset that looking it up gives, unless this is zero. -/
private theorem mem_presentSlots_iff {v : VTable} (hcount : v.slotCount ≤ 65536)
    {slot offset : UInt16} :
    (slot, offset) ∈ v.presentSlots ↔ v.fieldOffset slot = offset ∧ offset ≠ 0 := by
  simp only [presentSlots_eq hcount, List.mem_filterMap, listed_eq_some_iff, List.mem_range,
    Prod.mk.injEq]
  constructor
  · rintro ⟨i, hi, hpresent, rfl, rfl⟩
    exact ⟨rfl, hpresent⟩
  · rintro ⟨rfl, hpresent⟩
    have hslot : UInt16.ofNat slot.toNat = slot := UInt16.ofNat_toNat
    refine ⟨slot.toNat, lt_slotCount_of_fieldOffset_ne_zero hpresent, ?_⟩
    rw [hslot]
    exact ⟨hpresent, rfl, rfl⟩

/-- The slots are listed in order. -/
private theorem pairwise_presentSlots {v : VTable} (hcount : v.slotCount ≤ 65536) :
    (v.presentSlots.map Prod.fst).Pairwise (· < ·) := by
  rw [presentSlots_eq hcount, List.pairwise_map, List.pairwise_filterMap]
  refine List.pairwise_lt_range.imp_of_mem fun {i j} hi hj hij => ?_
  intro entry hentry entry' hentry'
  obtain ⟨-, rfl⟩ := listed_eq_some_iff.mp hentry
  obtain ⟨-, rfl⟩ := listed_eq_some_iff.mp hentry'
  rw [UInt16.lt_iff_toNat_lt, UInt16.toNat_ofNat_of_lt', UInt16.toNat_ofNat_of_lt']
  · exact hij
  · exact Nat.lt_of_lt_of_le (List.mem_range.mp hj) hcount
  · exact Nat.lt_of_lt_of_le (List.mem_range.mp hi) hcount

end VTable

/-! ### Slots -/

/-- What `slots` say of the vtable `v`: its entries in order, with their names and places. -/
structure VTable.ListedAs (v : VTable) (slots : List SlotReport) : Prop where
  increasing : (slots.map (·.slot)).Pairwise (· < ·)
  /-- Exactly the slots that are found by number are listed, each with the same offset. -/
  listed_iff : ∀ slot offset, (∃ r ∈ slots, r.slot = slot ∧ r.fieldOffset = offset) ↔
    v.fieldOffset slot = offset ∧ offset ≠ 0
  name : ∀ r ∈ slots, r.name
    = ["destination", "content_type", "content", "id"].getD r.slot.toNat "unknown"
  /-- The place of an entry is exact, not a remainder. -/
  voffset : ∀ r ∈ slots, r.voffset.toNat = 4 + 2 * r.slot.toNat

private theorem slotName_eq (slot : UInt16) :
    slotName slot
      = ["destination", "content_type", "content", "id"].getD slot.toNat "unknown" := by
  rw [slotName]
  split
  next h => rw [h]; rfl
  next h => rw [h]; rfl
  next h => rw [h]; rfl
  next h => rw [h]; rfl
  next h0 h1 h2 h3 =>
    refine (List.getD_eq_default _ _ ?_).symm
    change 4 ≤ slot.toNat
    have h0 : slot.toNat ≠ 0 := h0
    have h1 : slot.toNat ≠ 1 := h1
    have h2 : slot.toNat ≠ 2 := h2
    have h3 : slot.toNat ≠ 3 := h3
    omega

/-- The place of an entry does not wrap where a vtable can have it. -/
private theorem toNat_voffset {slot : UInt16} (h : slot.toNat < 32765) :
    (voffset slot).toNat = 4 + 2 * slot.toNat := by
  rw [voffset, UInt16.toNat_add, UInt16.toNat_mul]
  change (4 + 2 * slot.toNat % 65536) % 65536 = _
  omega

/-- A vtable with as many entries as its length can say is listed as it is. -/
private theorem VTable.listedAs_ofVTable {v : VTable} (hcount : v.slotCount ≤ 32765) :
    v.ListedAs (VTableReport.ofVTable v).slots := by
  have hsize : v.slotCount ≤ 65536 := by omega
  have hslots : (VTableReport.ofVTable v).slots = v.presentSlots.map .ofEntry := rfl
  rw [hslots]
  refine ⟨?_, fun slot offset => ?_, ?_, ?_⟩
  · rw [List.map_map]
    exact pairwise_presentSlots hsize
  · rw [← mem_presentSlots_iff hsize]
    constructor
    · rintro ⟨r, hr, rfl, rfl⟩
      obtain ⟨entry, hentry, rfl⟩ := List.mem_map.mp hr
      exact hentry
    · intro hentry
      exact ⟨_, List.mem_map_of_mem hentry, rfl, rfl⟩
  · rintro r hr
    obtain ⟨entry, -, rfl⟩ := List.mem_map.mp hr
    exact slotName_eq entry.1
  · rintro r hr
    obtain ⟨⟨slot, offset⟩, hentry, rfl⟩ := List.mem_map.mp hr
    obtain ⟨hfield, hpresent⟩ := (mem_presentSlots_iff hsize).mp hentry
    have hne : v.fieldOffset slot ≠ 0 := hfield ▸ hpresent
    have hlt := lt_slotCount_of_fieldOffset_ne_zero hne
    exact toNat_voffset (Nat.lt_of_lt_of_le hlt hcount)

/-- The length of a vtable is an even 16-bit number, so it has at most 32765 entries. -/
private theorem Bytes.IsTable.slotCount_le {b : Bytes} {p : Nat} (h : b.IsTable p) :
    (b.vtable p).slotCount ≤ 32765 := by
  have hlt : b.vtableLengthAt p < 65536 := b.word16At_lt _
  have heven := h.vtable_even
  rw [VTable.slotCount, h.length_vtable]
  omega

/-! ### Verdicts -/

/-- What is malformed in a buffer that is to hold an envelope: the envelope, or the error that its
tag says is its content. -/
inductive Bytes.Malformed (b : Bytes) : WireError → Prop
  | envelope {fault : WireError} (h : Envelope.ofBuffer b = .error fault) : Malformed b fault
  | content {e : Envelope} {table : Table} {fault : WireError} (he : Envelope.ofBuffer b = .ok e)
    (htag : e.contentType = 2) (htable : e.contentAs Table = .ok (some table))
    (hview : (Record.ofTable table : Except WireError ErrorContent) = .error fault) :
    Malformed b fault

/-- The tag of an envelope says that there is a content and there is none, or the reverse. -/
def Envelope.Inconsistent (e : Envelope) : Prop :=
  e.contentType ≠ 0 ∧ e.contentAs Table = .ok none ∨
    e.contentType = 0 ∧ ∃ table, e.contentAs Table = .ok (some table)

/-- The report on an envelope with the vtable `v`, once its content is known. -/
def Report.ofEnvelope (e : Envelope) (v : VTable) (content : ContentReport) : Report where
  bufferLength := e.table.buffer.length
  rootPosition := e.table.position
  vtable := .ofVTable v
  destination := e.destination.map .ofDestination
  contentType := e.contentType
  content := content
  id := e.id

section Reports

variable {b : Bytes} {e : Envelope}

/-- An envelope that is accepted is reported as soon as its content can be. -/
private theorem Report.ofBuffer_of_accepted (he : Envelope.ofBuffer b = .ok e) :
    ∃ v, e.table.vtable = .ok v ∧ v.slotCount ≤ 32765 ∧
      Report.ofBuffer b = (ContentReport.ofResult e.content).map (Report.ofEnvelope e v) := by
  obtain ⟨henvelope, rfl⟩ := ofBuffer_eq_ok_iff.mp he
  have hvtable : Table.vtable ⟨b, b.rootAt⟩ = .ok (b.vtable b.rootAt) :=
    Table.vtable_eq_ok_iff_isTable.mpr ⟨henvelope.table, rfl⟩
  refine ⟨_, hvtable, henvelope.table.slotCount_le, ?_⟩
  rw [Report.ofBuffer, he]
  change (Envelope.checked (Table.vtable ⟨b, b.rootAt⟩) >>= _) = _
  rw [hvtable]
  change (ContentReport.ofResult _ >>= _) = _
  cases ContentReport.ofResult (Envelope.content ⟨⟨b, b.rootAt⟩⟩) <;> rfl

private theorem ContentReport.ofResult_eq_error_iff {x : Except EnvelopeError Content}
    {cause : EnvelopeError} :
    ofResult x = .error cause ↔ ∃ fault, x = .error (.wire fault) ∧ cause = .wire fault := by
  cases x with
  | ok content => simp [ofResult]
  | error fault => cases fault <;> simp [ofResult, EnvelopeError.isMalformed, eq_comm]

/-- The content of an envelope is reported as invalid exactly where its tag does not go with it. -/
private theorem Envelope.ofResult_eq_invalid_iff {table : Option Table}
    (htable : e.contentAs Table = .ok table) :
    (∃ cause, ContentReport.ofResult e.content = .ok (.invalid cause)) ↔ e.Inconsistent := by
  have hreads := readsContent htable
  rw [Inconsistent, htable]
  generalize e.content = content at hreads
  cases hreads with
  | missing htag => simp [ContentReport.ofResult, EnvelopeError.isMalformed, htag]
  | untagged htag => simp [ContentReport.ofResult, EnvelopeError.isMalformed, htag]
  | malformed htag => simp [ContentReport.ofResult, EnvelopeError.isMalformed, htag]
  | none htag => simp [ContentReport.ofResult, ContentReport.ofContent, htag]
  | noMessage htag => simp [ContentReport.ofResult, ContentReport.ofContent, htag]
  | error htag => simp [ContentReport.ofResult, ContentReport.ofContent, htag]
  | success htag => simp [ContentReport.ofResult, ContentReport.ofContent, htag]
  | other htag =>
    have hne : e.contentType ≠ 0 := by
      intro hzero
      rw [hzero] at htag
      exact absurd htag (by decide)
    simp [ContentReport.ofResult, ContentReport.ofContent, hne]

/-- **There is no report exactly where the bytes are malformed.** -/
theorem Report.ofBuffer_eq_error_iff {cause : EnvelopeError} :
    ofBuffer b = .error cause ↔ ∃ fault, b.Malformed fault ∧ cause = .wire fault := by
  cases hwrap : Envelope.ofBuffer b with
  | error fault =>
    have hreport : ofBuffer b = .error (.wire fault) := by
      rw [ofBuffer, hwrap]
      rfl
    rw [hreport]
    constructor
    · rintro ⟨⟩
      exact ⟨fault, .envelope hwrap, rfl⟩
    · rintro ⟨fault', hmalformed, rfl⟩
      cases hmalformed with
      | envelope h => rw [hwrap] at h; cases h; rfl
      | content he => rw [hwrap] at he; cases he
  | ok e =>
    obtain ⟨t, -, hview⟩ := bind_eq_ok_iff.mp hwrap
    have hfaithful := Envelope.faithful_of_ofTable hview
    obtain ⟨v, -, -, hreport⟩ := ofBuffer_of_accepted hwrap
    rw [hreport, map_eq_error_iff, ContentReport.ofResult_eq_error_iff]
    constructor
    · rintro ⟨fault, hcontent, rfl⟩
      obtain ⟨htag, table, htable, hrecord⟩ := (hfaithful.wire_iff fault).mp hcontent
      exact ⟨fault, .content hwrap htag htable hrecord, rfl⟩
    · rintro ⟨fault, hmalformed, rfl⟩
      refine ⟨fault, (hfaithful.wire_iff fault).mpr ?_, rfl⟩
      cases hmalformed with
      | envelope h => rw [hwrap] at h; cases h
      | content he htag htable hrecord =>
        rw [hwrap] at he
        cases he
        exact ⟨htag, _, htable, hrecord⟩

/-- A report is that on an envelope whose content can be reported. -/
theorem Report.eq_ofEnvelope_of_ofBuffer {r : Report} (h : ofBuffer b = .ok r) :
    ∃ e v content, Envelope.ofBuffer b = .ok e ∧ e.table.vtable = .ok v ∧ v.slotCount ≤ 32765 ∧
      ContentReport.ofResult e.content = .ok content ∧ r = ofEnvelope e v content := by
  obtain ⟨e, he, -⟩ := bind_eq_ok_iff.mp h
  have hwrap : Envelope.ofBuffer b = .ok e := mapError_eq_ok_iff.mp he
  obtain ⟨v, hv, hcount, hreport⟩ := ofBuffer_of_accepted hwrap
  rw [hreport] at h
  obtain ⟨content, hcontent, rfl⟩ := map_eq_ok_iff.mp h
  exact ⟨e, v, content, hwrap, hv, hcount, hcontent, rfl⟩

end Reports

/-- What the report `r` says of the envelope `e`. -/
structure Report.Finds (r : Report) (e : Envelope) : Prop where
  invalid_iff : (∃ cause, r.content = .invalid cause) ↔ e.Inconsistent
  slots : ∃ v, e.table.vtable = .ok v ∧ v.slotCount ≤ 32765 ∧ v.ListedAs r.vtable.slots

/-- **Bad bytes and inconsistent tags are told apart, and the slots are listed as they are.** There
is no report exactly where no envelope is accepted or its tag is that of an error and its content
cannot be viewed as one, and the error is then one of malformed bytes. Any other buffer is reported:
its content is invalid exactly where tag and content disagree, and its slots are those of the vtable
that are found by number, in order, with their names and their exact places. -/
theorem Report.finds (b : Bytes) :
    (∀ cause, ofBuffer b = .error cause ↔ ∃ fault, b.Malformed fault ∧ cause = .wire fault) ∧
      (∀ cause, ofBuffer b = .error cause → cause.isMalformed = true) ∧
      ((∃ r, ofBuffer b = .ok r) ↔ ∀ fault, ¬ b.Malformed fault) ∧
      ∀ r, ofBuffer b = .ok r → ∃ e, Envelope.ofBuffer b = .ok e ∧ r.Finds e := by
  refine ⟨fun cause => ofBuffer_eq_error_iff, fun cause h => ?_, ?_, fun r hr => ?_⟩
  · obtain ⟨fault, -, rfl⟩ := ofBuffer_eq_error_iff.mp h
    rfl
  · constructor
    · rintro ⟨r, hr⟩ fault hmalformed
      rw [ofBuffer_eq_error_iff.mpr ⟨fault, hmalformed, rfl⟩] at hr
      cases hr
    · intro hsound
      cases hreport : ofBuffer b with
      | ok r => exact ⟨r, rfl⟩
      | error cause =>
        obtain ⟨fault, hmalformed, -⟩ := ofBuffer_eq_error_iff.mp hreport
        exact absurd hmalformed (hsound fault)
  · obtain ⟨e, v, content, hwrap, hv, hcount, hcontent, rfl⟩ := eq_ofEnvelope_of_ofBuffer hr
    obtain ⟨t, -, hview⟩ := bind_eq_ok_iff.mp hwrap
    obtain ⟨table, htable⟩ := (Envelope.faithful_of_ofTable hview).contentAs
    refine ⟨e, hwrap, ?_, v, hv, hcount, VTable.listedAs_ofVTable hcount⟩
    rw [← Envelope.ofResult_eq_invalid_iff htable.read_eq, hcontent]
    simp only [ofEnvelope, Except.ok.injEq]

/-- An envelope with the tag 3, without a content, and with a byte in slot 4, for which there is no
name. -/
def strayTag : Bytes :=
  [20, 0, 0, 0, 0, 0, 14, 0, 8, 0, 0, 0, 4, 0, 0, 0, 0, 0, 5, 0, 14, 0, 0, 0, 3, 9, 0, 0]

theorem Report.finds_strayTag :
    ∃ r e, ofBuffer strayTag = .ok r ∧ Envelope.ofBuffer strayTag = .ok e ∧ e.Inconsistent ∧
      r.content = .invalid (.missingContent 3) ∧
      (∃ s ∈ r.vtable.slots, s.slot = 4 ∧ s.fieldOffset = 5 ∧ s.name = "unknown" ∧
        s.voffset.toNat = 12) ∧
      ¬ ∃ s ∈ r.vtable.slots, s.slot = 2 := by
  obtain ⟨r, hr, hcontent⟩ := exists_ok_of_any (x := ofBuffer strayTag)
    (p := fun r => r.content == .invalid (.missingContent 3)) (by decide +kernel)
  have hwrap : Envelope.ofBuffer strayTag = .ok ⟨⟨strayTag, 20⟩⟩ := rfl
  have hvtable : Table.vtable ⟨strayTag, 20⟩
      = .ok ⟨[14, 0, 8, 0, 0, 0, 4, 0, 0, 0, 0, 0, 5, 0], 6⟩ := rfl
  obtain ⟨-, -, -, hreport⟩ := finds strayTag
  obtain ⟨e, he, hfinds⟩ := hreport r hr
  obtain rfl := Except.ok.inj (hwrap.symm.trans he)
  obtain ⟨v, hv, -, hlisted⟩ := hfinds.slots
  obtain rfl := Except.ok.inj (hvtable.symm.trans hv)
  have hinvalid : r.content = .invalid (.missingContent 3) := eq_of_beq hcontent
  refine ⟨r, _, hr, hwrap, hfinds.invalid_iff.mp ⟨_, hinvalid⟩, hinvalid, ?_, ?_⟩
  · obtain ⟨s, hs, hslot, hoffset⟩ := (hlisted.listed_iff 4 5).mpr (by decide)
    refine ⟨s, hs, hslot, hoffset, ?_, ?_⟩
    · rw [hlisted.name s hs, hslot]
      rfl
    · rw [hlisted.voffset s hs, hslot]
      rfl
  · rintro ⟨s, hs, hslot⟩
    obtain ⟨hfield, hpresent⟩ := (hlisted.listed_iff 2 s.fieldOffset).mp ⟨s, hs, hslot, rfl⟩
    exact hpresent (hfield.symm.trans rfl)

end EnvelopeWire
