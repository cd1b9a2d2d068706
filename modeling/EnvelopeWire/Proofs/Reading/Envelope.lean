import EnvelopeWire.Proofs.Reading.Faults

/-!
# The format of an envelope

What it takes for bytes to hold an envelope, said of the bytes alone, and what an envelope says
then. An envelope is accepted exactly when its bytes have the format, so nothing that the format
forbids gets past the check and nothing that it allows is refused; and what the accessors give is
what the bytes store, with a default only where the slot is absent.

* `Bytes.IsEnvelope`: the format.
* `Envelope.Shows`: what the accessors say, in terms of the bytes.
-/

namespace EnvelopeWire

namespace Bytes

section Format

variable (b : Bytes) (p : Nat)

/-- The slots of the object at `p` are those of a destination: a kind, and a name that is a
string. -/
structure HoldsDestination : Prop where
  kind : b.GoodSlot p 0 1
  target : b.RefersTo p 1 b.IsString

/-- The slots of the object at `p` are those of an envelope. -/
structure HoldsEnvelope : Prop where
  destination : b.RefersTo p 0 fun q => b.IsTable q ∧ b.HoldsDestination q
  contentType : b.GoodSlot p 1 1
  content : b.RefersTo p 2 b.IsTable
  id : b.GoodSlot p 3 4

/-- Where the reference at the front of a buffer leads. -/
def rootAt : Nat := b.word32At 0

/-- The bytes hold an envelope at their root. -/
structure IsEnvelope : Prop where
  header_le : 4 ≤ b.length
  table : b.IsTable b.rootAt
  fields : b.HoldsEnvelope b.rootAt

/-- The byte in `slot` of the object at `p`, zero when the slot is absent. -/
def byteIn (slot : Nat) : Nat :=
  if b.fieldAt p slot = 0 then 0 else b.byteAt (p + b.fieldAt p slot)

/-- The signed 32-bit number in `slot` of the object at `p`, zero when the slot is absent. -/
def int32In (slot : Nat) : Int :=
  if b.fieldAt p slot = 0 then 0 else b.int32At (p + b.fieldAt p slot)

/-- Where the reference in `slot` of the object at `p` leads, or nothing when the slot is absent. -/
def targetIn (slot : Nat) : Option Nat :=
  if b.fieldAt p slot = 0 then none else some (b.targetAt p slot)

end Format

end Bytes

/-- `d` is the destination at `p`, and says what is stored there. -/
structure Destination.Shows (b : Bytes) (d : Destination) (p : Nat) : Prop where
  table : d.table = ⟨b, p⟩
  kind : d.kindByte.toNat = b.byteIn p 0
  target : d.target.map utf8 = (b.targetIn p 1).map b.vectorAt

/-- `e` is the envelope at the root, and says what is stored there. -/
structure Envelope.Shows (b : Bytes) (e : Envelope) : Prop where
  table : e.table = ⟨b, b.rootAt⟩
  destination : Option.Rel (Destination.Shows b) e.destination (b.targetIn b.rootAt 0)
  contentType : e.contentType.toNat = b.byteIn b.rootAt 1
  content : e.contentAs Table = .ok ((b.targetIn b.rootAt 2).map fun p => ⟨b, p⟩)
  id : e.id.toInt = b.int32In b.rootAt 3

/-! ### Objects and records -/

section Records

variable {b : Bytes} {p : Nat}

private theorem exists_readString_iff : (∃ text, readString b p = .ok text) ↔ b.IsString p := by
  simp only [readString_eq_ok_iff, exists_and_left, Bytes.IsString]

private theorem exists_get_iff {type : ScalarType} {slot : UInt16} {default : type.Value} :
    (∃ value, Table.get ⟨b, p⟩ type slot default = .ok value) ↔
      b.IsTable p ∧ b.GoodSlot p slot.toNat type.width := by
  simp only [Table.get_eq_ok_iff, exists_and_left, exists_eq, and_true]

private theorem exists_getString_iff {slot : UInt16} :
    (∃ text, Table.getString ⟨b, p⟩ slot = .ok text) ↔
      b.IsTable p ∧ b.RefersTo p slot.toNat b.IsString :=
  Table.exists_getWith_iff fun _ => exists_readString_iff

/-- A reference is followed to an object exactly where one lies. -/
theorem getTable_eq_ok_iff {slot : UInt16} {r : Option Table} :
    Table.getTable ⟨b, p⟩ slot = .ok r ↔
      b.IsTable p ∧ b.RefersTo p slot.toNat b.IsTable ∧
        r = (b.targetIn p slot.toNat).map fun q => ⟨b, q⟩ := by
  rw [Table.getTable, Table.getWith_eq_ok_iff, Bytes.RefersTo, Bytes.targetIn]
  by_cases hzero : b.fieldAt p slot.toNat = 0
  · simp [hzero]
  · simp [hzero, Table.ofPosition_eq_ok_iff, and_assoc]

/-- Viewed as a table, an object is itself. -/
theorem getRecord_table (t : Table) (slot : UInt16) : t.getRecord Table slot = t.getTable slot := by
  rw [Table.getRecord]
  rcases t.getTable slot with e | _ | target <;> rfl

/-- A reference is followed to a record exactly where an object lies that holds one. -/
private theorem getRecord_eq_ok_iff {ρ : Type} [Record ρ] {P : Nat → Prop} {view : Nat → ρ}
    (hrecord : ∀ q (r : ρ), Record.ofTable ⟨b, q⟩ = .ok r ↔ b.IsTable q ∧ P q ∧ r = view q)
    {slot : UInt16} {r : Option ρ} :
    Table.getRecord ρ ⟨b, p⟩ slot = .ok r ↔
      b.IsTable p ∧ b.RefersTo p slot.toNat (fun q => b.IsTable q ∧ P q) ∧
        r = (b.targetIn p slot.toNat).map view := by
  rw [Table.getRecord, bind_eq_ok_iff]
  simp only [getTable_eq_ok_iff]
  constructor
  · rintro ⟨t, ⟨h, ⟨hreference, htarget⟩, rfl⟩, hread⟩
    rw [Bytes.targetIn] at hread ⊢
    by_cases hzero : b.fieldAt p slot.toNat = 0
    · rw [if_pos hzero] at hread ⊢
      exact ⟨h, ⟨hreference, fun hne => absurd hzero hne⟩, (Except.ok.inj hread).symm⟩
    · rw [if_neg hzero] at hread ⊢
      obtain ⟨a, ha, heq⟩ := bind_eq_ok_iff.mp hread
      obtain ⟨hobject, hholds, rfl⟩ := (hrecord _ a).mp ha
      exact ⟨h, ⟨hreference, fun _ => ⟨hobject, hholds⟩⟩, (Except.ok.inj heq).symm⟩
  · rintro ⟨h, ⟨hreference, htarget⟩, rfl⟩
    refine ⟨_, ⟨h, ⟨hreference, fun hne => (htarget hne).1⟩, rfl⟩, ?_⟩
    rw [Bytes.targetIn]
    by_cases hzero : b.fieldAt p slot.toNat = 0
    · rw [if_pos hzero]
      rfl
    · rw [if_neg hzero]
      obtain ⟨hobject, hholds⟩ := htarget hzero
      exact bind_eq_ok_iff.mpr ⟨_, (hrecord _ _).mpr ⟨hobject, hholds, rfl⟩, rfl⟩

/-- A table is viewed as a destination exactly when it holds one. -/
theorem destination_eq_ok_iff {d : Destination} :
    Record.ofTable ⟨b, p⟩ = .ok d ↔ b.IsTable p ∧ b.HoldsDestination p ∧ d = ⟨⟨b, p⟩⟩ := by
  change (Table.get ⟨b, p⟩ .u8 0 _ >>= fun _ => Table.getString ⟨b, p⟩ 1 >>= fun _ =>
    .ok (⟨⟨b, p⟩⟩ : Destination)) = .ok d ↔ _
  rw [bind_eq_ok_iff]
  constructor
  · rintro ⟨kind, hkind, hrest⟩
    obtain ⟨target, htarget, heq⟩ := bind_eq_ok_iff.mp hrest
    obtain ⟨h, hslot⟩ := exists_get_iff.mp ⟨kind, hkind⟩
    obtain ⟨-, hname⟩ := exists_getString_iff.mp ⟨target, htarget⟩
    exact ⟨h, ⟨hslot, hname⟩, (Except.ok.inj heq).symm⟩
  · rintro ⟨h, hfields, rfl⟩
    have hname : ∃ text, Table.getString ⟨b, p⟩ 1 = .ok text :=
      exists_getString_iff.mpr ⟨h, hfields.target⟩
    obtain ⟨target, htarget⟩ := hname
    refine ⟨_, Table.get_eq_ok_iff.mpr ⟨h, hfields.kind, rfl⟩, ?_⟩
    exact bind_eq_ok_iff.mpr ⟨target, htarget, rfl⟩

/-- A table is viewed as an envelope exactly when it holds one. -/
theorem envelope_eq_ok_iff {e : Envelope} :
    Record.ofTable ⟨b, p⟩ = .ok e ↔ b.IsTable p ∧ b.HoldsEnvelope p ∧ e = ⟨⟨b, p⟩⟩ := by
  change (Table.getRecord Destination ⟨b, p⟩ 0 >>= fun _ => Table.get ⟨b, p⟩ .u8 1 _ >>= fun _ =>
    Table.getTable ⟨b, p⟩ 2 >>= fun _ => Table.get ⟨b, p⟩ .i32 3 _ >>= fun _ =>
    .ok (⟨⟨b, p⟩⟩ : Envelope)) = .ok e ↔ _
  rw [bind_eq_ok_iff]
  constructor
  · rintro ⟨destination, hdestination, hrest⟩
    obtain ⟨tag, htag, hrest⟩ := bind_eq_ok_iff.mp hrest
    obtain ⟨content, hcontent, hrest⟩ := bind_eq_ok_iff.mp hrest
    obtain ⟨id, hid, heq⟩ := bind_eq_ok_iff.mp hrest
    obtain ⟨h, hto, -⟩ := (getRecord_eq_ok_iff fun _ _ => destination_eq_ok_iff).mp hdestination
    obtain ⟨-, htagged⟩ := exists_get_iff.mp ⟨tag, htag⟩
    obtain ⟨-, hheld, -⟩ := getTable_eq_ok_iff.mp hcontent
    obtain ⟨-, hnumbered⟩ := exists_get_iff.mp ⟨id, hid⟩
    exact ⟨h, ⟨hto, htagged, hheld, hnumbered⟩, (Except.ok.inj heq).symm⟩
  · rintro ⟨h, hfields, rfl⟩
    refine ⟨_, (getRecord_eq_ok_iff fun _ _ => destination_eq_ok_iff).mpr
      ⟨h, hfields.destination, rfl⟩, ?_⟩
    refine bind_eq_ok_iff.mpr ⟨_, Table.get_eq_ok_iff.mpr ⟨h, hfields.contentType, rfl⟩, ?_⟩
    refine bind_eq_ok_iff.mpr ⟨_, getTable_eq_ok_iff.mpr ⟨h, hfields.content, rfl⟩, ?_⟩
    exact bind_eq_ok_iff.mpr ⟨_, Table.get_eq_ok_iff.mpr ⟨h, hfields.id, rfl⟩, rfl⟩

theorem rootTable_eq_ok_iff {t : Table} :
    rootTable b = .ok t ↔ 4 ≤ b.length ∧ b.IsTable b.rootAt ∧ t = ⟨b, b.rootAt⟩ := by
  rw [rootTable, bind_eq_ok_iff]
  constructor
  · rintro ⟨_, hlength, hrest⟩
    obtain ⟨root, hroot, hobject⟩ := bind_eq_ok_iff.mp hrest
    rw [(readScalar_u32_eq_ok_iff.mp hroot).2] at hobject
    exact ⟨ensure_eq_ok_iff.mp hlength, Table.ofPosition_eq_ok_iff.mp hobject⟩
  · rintro ⟨hlength, hobject⟩
    obtain ⟨root, hroot, hnat⟩ := exists_readScalar_u32 (show 0 + 4 ≤ b.length by omega)
    refine ⟨(), ensure_eq_ok_iff.mpr hlength, bind_eq_ok_iff.mpr ⟨root, hroot, ?_⟩⟩
    rw [hnat]
    exact Table.ofPosition_eq_ok_iff.mpr hobject

theorem ofBuffer_eq_ok_iff {e : Envelope} :
    Envelope.ofBuffer b = .ok e ↔ b.IsEnvelope ∧ e = ⟨⟨b, b.rootAt⟩⟩ := by
  rw [Envelope.ofBuffer, bind_eq_ok_iff]
  simp only [rootTable_eq_ok_iff]
  constructor
  · rintro ⟨t, ⟨hlength, -, rfl⟩, hread⟩
    obtain ⟨h, hfields, rfl⟩ := envelope_eq_ok_iff.mp hread
    exact ⟨⟨hlength, h, hfields⟩, rfl⟩
  · rintro ⟨h, rfl⟩
    exact ⟨_, ⟨h.header_le, h.table, rfl⟩, envelope_eq_ok_iff.mpr ⟨h.table, h.fields, rfl⟩⟩

end Records

/-! ### What an envelope says -/

section Accessors

variable {b : Bytes} {p : Nat} (h : b.IsTable p)

include h

/-- A byte that is checked is the stored one, or zero when its slot is absent. -/
private theorem toNat_getD_u8 {slot : UInt16} (hslot : b.GoodSlot p slot.toNat 1) :
    UInt8.toNat ((Table.get ⟨b, p⟩ .u8 slot (0 : UInt8)).toOption.getD 0)
      = b.byteIn p slot.toNat := by
  rw [Table.get_eq_ok_iff.mpr ⟨h, hslot, rfl⟩, Bytes.byteIn]
  by_cases hzero : b.fieldAt p slot.toNat = 0
  · rw [if_pos hzero, if_pos hzero]
    rfl
  · rw [if_neg hzero, if_neg hzero]
    exact toNat_decode_u8 b _

/-- A number that is checked is the stored one, or zero when its slot is absent. -/
private theorem toInt_getD_i32 {slot : UInt16} (hslot : b.GoodSlot p slot.toNat 4) :
    Int32.toInt ((Table.get ⟨b, p⟩ .i32 slot (0 : Int32)).toOption.getD 0)
      = b.int32In p slot.toNat := by
  rw [Table.get_eq_ok_iff.mpr ⟨h, hslot, rfl⟩, Bytes.int32In]
  by_cases hzero : b.fieldAt p slot.toNat = 0
  · rw [if_pos hzero, if_pos hzero]
    rfl
  · rw [if_neg hzero, if_neg hzero]
    exact toInt_decode_i32 b _

/-- A string that is checked is the stored one, or nothing when its slot is absent. -/
private theorem map_utf8_join_getString {slot : UInt16}
    (hslot : b.RefersTo p slot.toNat b.IsString) :
    ((Table.getString ⟨b, p⟩ slot).toOption.join).map utf8
      = (b.targetIn p slot.toNat).map b.vectorAt := by
  obtain ⟨r, hr⟩ := exists_getString_iff.mpr ⟨h, hslot⟩
  obtain ⟨-, -, htext⟩ := Table.getWith_eq_ok_iff.mp hr
  rw [hr, Bytes.targetIn]
  by_cases hzero : b.fieldAt p slot.toNat = 0
  · rw [if_pos hzero] at htext ⊢
    rw [htext]
    rfl
  · rw [if_neg hzero] at htext ⊢
    obtain ⟨text, hread, rfl⟩ := htext
    exact congrArg some (readString_eq_ok_iff.mp hread).2.symm

end Accessors

/-- A destination that is accepted says what is stored. -/
private theorem Bytes.HoldsDestination.shows {b : Bytes} {p : Nat} (h : b.HoldsDestination p)
    (htable : b.IsTable p) : Destination.Shows b ⟨⟨b, p⟩⟩ p where
  table := rfl
  kind := toNat_getD_u8 htable h.kind
  target := map_utf8_join_getString htable h.target

/-- An envelope that is accepted says what is stored. -/
private theorem Bytes.IsEnvelope.shows {b : Bytes} (h : b.IsEnvelope) :
    Envelope.Shows b ⟨⟨b, b.rootAt⟩⟩ where
  table := rfl
  destination := by
    have hread : Table.getRecord Destination ⟨b, b.rootAt⟩ 0
        = .ok ((b.targetIn b.rootAt 0).map fun p => ⟨⟨b, p⟩⟩) :=
      (getRecord_eq_ok_iff fun _ _ => destination_eq_ok_iff).mpr
        ⟨h.table, h.fields.destination, rfl⟩
    rw [Envelope.destination, hread, Bytes.targetIn]
    by_cases hzero : b.fieldAt b.rootAt 0 = 0
    · rw [if_pos hzero]
      exact .none
    · rw [if_neg hzero]
      obtain ⟨htable, hholds⟩ := h.fields.destination.2 hzero
      exact .some (hholds.shows htable)
  contentType := toNat_getD_u8 h.table h.fields.contentType
  content := by
    have hread : Table.getTable ⟨b, b.rootAt⟩ 2
        = .ok ((b.targetIn b.rootAt 2).map fun p => ⟨b, p⟩) :=
      getTable_eq_ok_iff.mpr ⟨h.table, h.fields.content, rfl⟩
    rw [Envelope.contentAs, getRecord_table, hread]
  id := toInt_getD_i32 h.table h.fields.id

/-! ### Errors -/

section Errors

open Bytes (Explains)

variable (b : Bytes) (p : Nat)

theorem explains_getRecord {ρ : Type} [Record ρ]
    (hrecord : ∀ q, b.Explains (Record.ofTable ⟨b, q⟩ : Except WireError ρ)) (slot : UInt16) :
    b.Explains (Table.getRecord ρ ⟨b, p⟩ slot) := by
  refine (b.explains_getTable p slot).bind fun found hfound => ?_
  obtain ⟨-, -, rfl⟩ := getTable_eq_ok_iff.mp hfound
  cases b.targetIn p slot.toNat with
  | none => exact .of_ok none
  | some q => exact (hrecord q).bind fun _ _ => .of_ok _

theorem explains_destination : b.Explains (Record.ofTable ⟨b, p⟩ : Except WireError Destination) :=
  (b.explains_get p 0 .u8 _).bind fun _ _ =>
    (b.explains_getString p 1).bind fun _ _ => .of_ok _

theorem explains_errorContent :
    b.Explains (Record.ofTable ⟨b, p⟩ : Except WireError ErrorContent) :=
  (b.explains_get p 0 .u16 _).bind fun _ _ => (b.explains_getString p 1).bind fun _ _ =>
    (b.explains_getString p 2).bind fun _ _ => .of_ok _

theorem explains_envelope : b.Explains (Record.ofTable ⟨b, p⟩ : Except WireError Envelope) :=
  (explains_getRecord b p (explains_destination b) 0).bind fun _ _ =>
    (b.explains_get p 1 .u8 _).bind fun _ _ => (b.explains_getTable p 2).bind fun _ _ =>
      (b.explains_get p 3 .i32 _).bind fun _ _ => .of_ok _

/-- Each error in reading an envelope is a fault of its bytes. -/
theorem explains_ofBuffer : b.Explains (Envelope.ofBuffer b) := by
  refine b.explains_rootTable.bind fun t ht => ?_
  obtain ⟨-, -, rfl⟩ := rootTable_eq_ok_iff.mp ht
  exact explains_envelope b _

/-- A buffer is called too short exactly when the reference to the root does not fit. -/
private theorem ofBuffer_eq_tooShort_iff {length : Nat} :
    Envelope.ofBuffer b = .error (.tooShort length) ↔ b.length < 4 ∧ length = b.length := by
  constructor
  · intro h
    cases explains_ofBuffer b _ h with
    | tooShort hlt => exact ⟨hlt, rfl⟩
  · rintro ⟨hlt, rfl⟩
    have hshort : ensure (4 ≤ b.length) (WireError.tooShort b.length)
        = .error (.tooShort b.length) := ensure_eq_error_iff.mpr ⟨Nat.not_le.mpr hlt, rfl⟩
    rw [Envelope.ofBuffer, rootTable, hshort]
    rfl

end Errors

namespace Envelope

/-- **A buffer is accepted exactly when it has the format of an envelope**, it is called too short
exactly when the reference to the root does not fit, and an envelope that is accepted says what the
bytes store. -/
theorem accepted_iff_isEnvelope (b : Bytes) :
    ((∃ e, ofBuffer b = .ok e) ↔ b.IsEnvelope) ∧
      (∀ length, ofBuffer b = .error (.tooShort length) ↔ b.length < 4 ∧ length = b.length) ∧
      ∀ e, ofBuffer b = .ok e → e.Shows b := by
  refine ⟨?_, fun _ => ofBuffer_eq_tooShort_iff b, fun e he => ?_⟩
  · simp only [ofBuffer_eq_ok_iff, exists_and_left, exists_eq, and_true]
  · obtain ⟨h, rfl⟩ := ofBuffer_eq_ok_iff.mp he
    exact h.shows

/-- An envelope with the number -7 for the topic "hé", with its vtable in front of it, and behind it
the destination with its own vtable and the name. -/
def toTopic : Bytes :=
  [20, 0, 0, 0, 0, 0, 0, 0, 12, 0, 12, 0, 4, 0, 0, 0, 0, 0, 8, 0, 12, 0, 0, 0, 20, 0, 0, 0,
    249, 255, 255, 255, 0, 0, 0, 0, 8, 0, 12, 0, 7, 0, 8, 0, 8, 0, 0, 0, 0, 0, 0, 1, 4, 0, 0, 0,
    3, 0, 0, 0, 104, 195, 169, 0]

theorem accepted_iff_isEnvelope_toTopic :
    toTopic.IsEnvelope ∧ ∃ e, ofBuffer toTopic = .ok e ∧ e.id.toInt = -7 ∧
      e.contentType.toNat = 0 ∧ e.contentAs Table = .ok none ∧
      ∃ d, e.destination = some d ∧ d.kindByte.toNat = 1 ∧
        d.target.map utf8 = some [104, 195, 169] := by
  obtain ⟨e, he, -⟩ := exists_ok_of_any (x := ofBuffer toTopic) (p := fun _ => true)
    (by decide +kernel)
  obtain ⟨hiff, -, hshows⟩ := accepted_iff_isEnvelope toTopic
  have h := hshows e he
  have hdestination : Option.Rel (Destination.Shows toTopic) e.destination (some 44) :=
    h.destination
  refine ⟨hiff.mp ⟨e, he⟩, e, he, h.id, h.contentType, h.content, ?_⟩
  generalize e.destination = destination at hdestination ⊢
  obtain @⟨d, _, hd⟩ := hdestination
  exact ⟨d, rfl, hd.kind, hd.target⟩

end Envelope

end EnvelopeWire
