import EnvelopeWire.Proofs.Reading.Envelope

/-!
# Accessors that hide no error

An accessor of a record has no error to give: where its read fails it falls back to a default, the
same that stands for an absent slot. In a record that was checked when it was viewed no read fails,
so a default means an absent slot and nothing else. Whatever is malformed beyond the check is an
error of `Envelope.content`, and this is the table of an error content only.

* `Table.Tells`, `Table.Finds`: what an accessor gives is what is stored, or the slot is absent.
* `Destination.faithful_of_ofTable`, `ErrorContent.faithful_of_ofTable`: records that are viewed.
* `Envelope.readsContent`: all that the content of an envelope can be.
* `Envelope.hides_no_error`: an envelope that is accepted, with all that it leads to.
-/

namespace EnvelopeWire

/-! ### Slots -/

namespace Table

/-- `slot` is absent: the vtable gives it no place. -/
def Absent (t : Table) (slot : UInt16) : Prop := ∃ v, t.vtable = .ok v ∧ v.fieldOffset slot = 0

/-- `value` is the scalar that is stored in `slot`, or the default and the slot is absent. -/
structure Tells (t : Table) (type : ScalarType) (slot : UInt16) (default value : type.Value) :
    Prop where
  absent : t.Absent slot → value = default
  stored : ¬ t.Absent slot → ∃ v, t.vtable = .ok v ∧
    readScalar type t.buffer (t.position + (v.fieldOffset slot).toNat) = .ok value

/-- `found` is what `read` gives for `slot`, without an error, and it is nothing only where the
slot is absent. -/
structure Finds {α : Type} (t : Table) (slot : UInt16) (read : Except WireError (Option α))
    (found : Option α) : Prop where
  read_eq : read = .ok found
  none_iff : found = none ↔ t.Absent slot

section Slots

variable {t : Table} {slot : UInt16}

private theorem absent_iff {b : Bytes} {p : Nat} (h : b.IsTable p) :
    Absent ⟨b, p⟩ slot ↔ b.fieldAt p slot.toNat = 0 := by
  rw [← h.fieldOffset_vtable, Absent]
  simp only [vtable_eq_ok_iff_isTable]
  constructor
  · rintro ⟨v, ⟨-, rfl⟩, hzero⟩
    rw [hzero]
    rfl
  · intro hzero
    exact ⟨_, ⟨h, rfl⟩, UInt16.toNat_inj.mp hzero⟩

/-- A scalar that is read is stored, unless it is the default for an absent slot. -/
private theorem tells_of_get {type : ScalarType} {default value : type.Value}
    (h : t.get type slot default = .ok value) : t.Tells type slot default value := by
  obtain ⟨b, p⟩ := t
  obtain ⟨htable, hslot, hvalue⟩ := get_eq_ok_iff.mp h
  constructor
  · intro habsent
    rw [hvalue, if_pos ((absent_iff htable).mp habsent)]
  · intro hpresent
    rw [absent_iff htable] at hpresent
    rw [if_neg hpresent] at hvalue
    refine ⟨_, vtable_eq_ok_iff_isTable.mpr ⟨htable, rfl⟩, ?_⟩
    rw [htable.fieldOffset_vtable]
    exact readScalar_eq_ok_iff.mpr ⟨htable.field_le hslot hpresent, hvalue⟩

/-- What a reference leads to is found, unless its slot is absent. -/
private theorem finds_of_getWith {α : Type} {read : Nat → Except WireError α} {found : Option α}
    (h : t.getWith slot read = .ok found) : t.Finds slot (t.getWith slot read) found := by
  refine ⟨h, ?_⟩
  obtain ⟨b, p⟩ := t
  obtain ⟨htable, -, hfound⟩ := getWith_eq_ok_iff.mp h
  rw [absent_iff htable]
  by_cases hzero : b.fieldAt p slot.toNat = 0
  · rw [if_pos hzero] at hfound
    simp [hzero, hfound]
  · rw [if_neg hzero] at hfound
    obtain ⟨a, -, rfl⟩ := hfound
    simp [hzero]

/-- An accessor of a scalar that can be read has no need of its default. -/
private theorem tells_getD {type : ScalarType} {default value : type.Value}
    (h : t.get type slot default = .ok value) :
    t.Tells type slot default ((t.get type slot default).toOption.getD default) := by
  rw [h]
  exact tells_of_get h

/-- An accessor of a string that can be read drops no error. -/
private theorem finds_join {text : Option String} (h : t.getString slot = .ok text) :
    t.Finds slot (t.getString slot) (t.getString slot).toOption.join := by
  have hfinds : t.Finds slot (t.getString slot) text := finds_of_getWith h
  rw [h] at hfinds ⊢
  exact hfinds

/-- A record that a reference leads to is found, unless its slot is absent, and it was checked. -/
theorem finds_of_getRecord {ρ : Type} [Record ρ] {found : Option ρ}
    (h : t.getRecord ρ slot = .ok found) :
    t.Finds slot (t.getRecord ρ slot) found ∧
      ∀ r, found = some r → ∃ u, t.getTable slot = .ok (some u) ∧ Record.ofTable u = .ok r := by
  obtain ⟨target, htarget, hview⟩ := bind_eq_ok_iff.mp h
  have hnone := (finds_of_getWith htarget).none_iff
  cases target with
  | none =>
    obtain rfl : none = found := Except.ok.inj hview
    refine ⟨⟨h, by simpa using hnone⟩, by simp⟩
  | some u =>
    obtain ⟨r, hr, heq⟩ := bind_eq_ok_iff.mp hview
    obtain rfl : some r = found := Except.ok.inj heq
    refine ⟨⟨h, by simpa using hnone⟩, ?_⟩
    intro r' hr'
    obtain rfl : r = r' := Option.some.inj hr'
    exact ⟨u, htarget, hr⟩

end Slots

end Table

/-! ### Records -/

/-- What a destination says is what is stored. -/
structure Destination.Faithful (d : Destination) : Prop where
  kind : d.table.Tells .u8 0 (0 : UInt8) d.kindByte
  target : d.table.Finds 1 (d.table.getString 1) d.target

/-- What an error says is what is stored. -/
structure ErrorContent.Faithful (e : ErrorContent) : Prop where
  code : e.table.Tells .u16 0 (0 : UInt16) e.code
  category : e.table.Finds 1 (e.table.getString 1) e.category
  reason : e.table.Finds 2 (e.table.getString 2) e.reason

section Records

variable {t : Table}

/-- **A destination that was checked when it was viewed hides no error.** -/
theorem Destination.faithful_of_ofTable {d : Destination} (h : Record.ofTable t = .ok d) :
    d.Faithful := by
  obtain ⟨kind, hkind, hrest⟩ := bind_eq_ok_iff.mp h
  obtain ⟨target, htarget, heq⟩ := bind_eq_ok_iff.mp hrest
  obtain rfl : Destination.mk t = d := Except.ok.inj heq
  exact ⟨Table.tells_getD hkind, Table.finds_join htarget⟩

/-- **An error that was checked when it was viewed hides no error.** -/
theorem ErrorContent.faithful_of_ofTable {e : ErrorContent} (h : Record.ofTable t = .ok e) :
    e.Faithful := by
  obtain ⟨code, hcode, hrest⟩ := bind_eq_ok_iff.mp h
  obtain ⟨category, hcategory, hrest⟩ := bind_eq_ok_iff.mp hrest
  obtain ⟨reason, hreason, heq⟩ := bind_eq_ok_iff.mp hrest
  obtain rfl : ErrorContent.mk t = e := Except.ok.inj heq
  exact ⟨Table.tells_getD hcode, Table.finds_join hcategory, Table.finds_join hreason⟩

end Records

/-! ### Contents -/

/-- What the content of an envelope is, by the tag and by the table that stands in its slot. -/
inductive Envelope.ReadsContent (e : Envelope) : Option Table → Except EnvelopeError Content → Prop
  | none (htag : e.contentType = 0) : ReadsContent e none (.ok .none)
  | missing (htag : e.contentType ≠ 0) :
    ReadsContent e none (.error (.missingContent e.contentType))
  | untagged {table : Table} (htag : e.contentType = 0) :
    ReadsContent e (some table) (.error .untaggedContent)
  | noMessage {table : Table} (htag : e.contentType = 1) :
    ReadsContent e (some table) (.ok .noMessage)
  | error {table : Table} {content : ErrorContent} (htag : e.contentType = 2)
    (hview : Record.ofTable table = .ok content) :
    ReadsContent e (some table) (.ok (.error content))
  /-- The only place where malformed bytes show after the envelope is accepted. -/
  | malformed {table : Table} {fault : WireError} (htag : e.contentType = 2)
    (hview : (Record.ofTable table : Except WireError ErrorContent) = .error fault) :
    ReadsContent e (some table) (.error (.wire fault))
  | success {table : Table} (htag : e.contentType = 3) : ReadsContent e (some table) (.ok .success)
  | other {table : Table} (htag : 3 < e.contentType) :
    ReadsContent e (some table) (.ok (.other e.contentType table))

/-- A byte without a type of its own is none of the first four. -/
private theorem ContentType.lt_of_ofByte_eq_error {byte : UInt8} {fault : EnvelopeError}
    (h : ofByte byte = .error fault) : 3 < byte := by
  rw [ofByte] at h
  grind

/-- The content of an envelope whose reference can be followed. -/
theorem Envelope.readsContent {e : Envelope} {table : Option Table}
    (htable : e.contentAs Table = .ok table) : e.ReadsContent table e.content := by
  cases table with
  | none =>
    rw [content_eq_of_none htable]
    split
    case isTrue htag => exact .none htag
    case isFalse htag => exact .missing htag
  | some table =>
    rw [content_eq htable]
    cases htype : ContentType.ofByte e.contentType with
    | error fault => exact .other (ContentType.lt_of_ofByte_eq_error htype)
    | ok type =>
      have htag := (ContentType.toByte_of_ofByte htype).symm
      cases type with
      | none => exact .untagged htag
      | noMessage => exact .noMessage htag
      | success => exact .success htag
      | error =>
        cases hview : (Record.ofTable table : Except WireError ErrorContent) with
        | error fault => exact .malformed htag hview
        | ok content => exact .error htag hview

/-! ### Envelopes -/

/-- What an envelope says is what is stored, and so is what it leads to. -/
structure Envelope.Faithful (e : Envelope) : Prop where
  destination : e.table.Finds 0 (e.table.getRecord Destination 0) e.destination
  destination_faithful : ∀ d, e.destination = some d → d.Faithful
  contentType : e.table.Tells .u8 1 (0 : UInt8) e.contentType
  id : e.table.Tells .i32 3 (0 : Int32) e.id
  contentAs : ∃ table, e.table.Finds 2 (e.contentAs Table) table
  /-- Malformed bytes are found in the content only where its tag is that of an error. -/
  wire_iff : ∀ fault, e.content = .error (.wire fault) ↔ e.contentType = 2 ∧
    ∃ table, e.contentAs Table = .ok (some table) ∧
      (Record.ofTable table : Except WireError ErrorContent) = .error fault
  content_ne_unknown : ∀ byte, e.content ≠ .error (.unknownContentType byte)
  content : ∀ c, e.content = .ok c → c.tag = e.contentType ∧ (c = .none ↔ e.table.Absent 2)
  error_faithful : ∀ c, e.content = .ok (.error c) → c.Faithful

namespace Envelope

/-- **An envelope that was checked when it was viewed hides no error.** -/
theorem faithful_of_ofTable {t : Table} {e : Envelope} (h : Record.ofTable t = .ok e) :
    e.Faithful := by
  obtain ⟨destination, hdestination, hrest⟩ := bind_eq_ok_iff.mp h
  obtain ⟨tag, htag, hrest⟩ := bind_eq_ok_iff.mp hrest
  obtain ⟨table, htable, hrest⟩ := bind_eq_ok_iff.mp hrest
  obtain ⟨id, hid, heq⟩ := bind_eq_ok_iff.mp hrest
  obtain rfl : Envelope.mk t = e := Except.ok.inj heq
  have hto : Envelope.destination ⟨t⟩ = destination := by
    rw [Envelope.destination, hdestination]
    rfl
  have hcontentAs : contentAs Table ⟨t⟩ = .ok table := (getRecord_table t 2).trans htable
  have hnone : table = none ↔ t.Absent 2 := (Table.finds_of_getWith htable).none_iff
  have hreads := readsContent hcontentAs
  have hfound := Table.finds_of_getRecord hdestination
  exact
    { destination := by
        rw [hto]
        exact hfound.1
      destination_faithful := by
        intro d hd
        obtain ⟨u, -, hu⟩ := hfound.2 d (hto.symm.trans hd)
        exact Destination.faithful_of_ofTable hu
      contentType := Table.tells_getD htag
      id := Table.tells_getD hid
      contentAs := ⟨table, hcontentAs, hnone⟩
      wire_iff := by
        intro fault
        constructor
        · intro hfault
          rw [hfault] at hreads
          cases hreads with | malformed htag hview => ?_
          exact ⟨htag, _, hcontentAs, hview⟩
        · rintro ⟨htag, u, hu, hview⟩
          rw [content_eq hu, htag]
          change (checked (Record.ofTable u)).map Content.error = _
          rw [hview]
          rfl
      content_ne_unknown := by
        intro byte hbyte
        rw [hbyte] at hreads
        cases hreads
      content := by
        intro c hc
        rw [hc] at hreads
        rw [← hnone]
        cases hreads with
        | none htag => exact ⟨htag.symm, by simp⟩
        | noMessage htag => exact ⟨htag.symm, by simp⟩
        | error htag => exact ⟨htag.symm, by simp⟩
        | success htag => exact ⟨htag.symm, by simp⟩
        | other htag => exact ⟨rfl, by simp⟩
      error_faithful := by
        intro c hc
        rw [hc] at hreads
        cases hreads with | error _ hview => ?_
        exact ErrorContent.faithful_of_ofTable hview }

/-- **An envelope that is accepted hides no error.** Each of its accessors, and of those of the
records that it leads to, gives what is stored, and a default or nothing only for an absent slot;
malformed bytes that the check passed over are an error of the content. -/
theorem hides_no_error {b : Bytes} {e : Envelope} (h : ofBuffer b = .ok e) : e.Faithful := by
  obtain ⟨t, -, hview⟩ := bind_eq_ok_iff.mp h
  exact faithful_of_ofTable hview

/-- An envelope without a destination, whose content is the error 7 with a reason, "off", and no
category. -/
def refusal : Bytes :=
  [20, 0, 0, 0, 0, 0, 0, 0, 0, 0, 10, 0, 12, 0, 0, 0, 7, 0, 8, 0, 10, 0, 0, 0, 0, 0, 0, 2,
    16, 0, 0, 0, 0, 0, 10, 0, 12, 0, 6, 0, 0, 0, 8, 0, 10, 0, 0, 0, 0, 0, 7, 0, 4, 0, 0, 0,
    3, 0, 0, 0, 111, 102, 102, 0]

theorem hides_no_error_refusal :
    ∃ e c, ofBuffer refusal = .ok e ∧ e.destination = none ∧ e.table.Absent 0 ∧
      e.content = .ok (.error c) ∧ c.code = 7 ∧ ¬ c.table.Absent 0 ∧
      c.category = none ∧ c.table.Absent 1 ∧ c.reason = some "off" ∧ ¬ c.table.Absent 2 := by
  obtain ⟨e, he, htest⟩ := exists_ok_of_any (x := ofBuffer refusal)
    (p := fun e => e.destination.isNone && match e.content with
      | .ok (.error c) => c.code == 7 && c.category.isNone && c.reason == some "off"
      | _ => false) (by decide +kernel)
  have hfaithful := hides_no_error he
  obtain ⟨hdestination, htest⟩ := Bool.and_eq_true_iff.mp htest
  split at htest
  case h_2 => cases htest
  case h_1 c hcontent =>
    simp only [Bool.and_eq_true, beq_iff_eq, Option.isNone_iff_eq_none] at hdestination htest
    obtain ⟨⟨hcode, hcategory⟩, hreason⟩ := htest
    have hc := hfaithful.error_faithful c hcontent
    refine ⟨e, c, he, hdestination, hfaithful.destination.none_iff.mp hdestination, hcontent,
      hcode, ?_, hcategory, hc.category.none_iff.mp hcategory, hreason, ?_⟩
    · intro habsent
      have hzero := hc.code.absent habsent
      rw [hcode] at hzero
      exact absurd hzero (by decide)
    · intro habsent
      have hnone := hc.reason.none_iff.mpr habsent
      rw [hreason] at hnone
      cases hnone

end Envelope

end EnvelopeWire
