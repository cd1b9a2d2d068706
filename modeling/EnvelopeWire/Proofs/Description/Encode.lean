import EnvelopeWire.Description.Basic
import EnvelopeWire.Proofs.Description.Record

/-!
# What a description writes

Writing a description goes through, unless its content has the tag that stands for none or there
is no room, and the account of the construction then holds the envelope that is described: its
destination, its content and its own fields, each under the offset that the next one refers to.

* `writes_destination`, `writes_content`, `writes_envelope`: the parts.
* `Description.writes_description`: the whole, at a cost of the texts and some 300 bytes.
-/

namespace EnvelopeWire

/-! ### Texts -/

/-- The number of bytes of a text that may be absent. -/
def textLength : Option String → Nat
  | some text => (utf8 text).length
  | none => 0

/-- What holds of two options passes to a weaker relation. -/
theorem optionRel_mono {α β : Type} {R S : α → β → Prop} (hRS : ∀ x y, R x y → S x y)
    {x : Option α} {y : Option β} (h : Option.Rel R x y) : Option.Rel S x y := by
  cases h with
  | none => exact .none
  | some h => exact .some (hRS _ _ h)

namespace Account

/-- A text that may be absent was written under an offset that may be absent. -/
def HoldsText (a : Account) (text : Option String) (offset : Option Offset) : Prop :=
  Option.Rel (fun text offset => (offset, Item.string text) ∈ a.items) text offset

/-- A text goes on being held by an account that tells of more. -/
private theorem HoldsText.mono {a a' : Account} {text : Option String} {offset : Option Offset}
    (h : a.HoldsText text offset) (hext : a'.Extends a) : a'.HoldsText text offset :=
  optionRel_mono (fun _ _ hmem => hext hmem) h

/-- A reference to a text that is held may be pushed. -/
private theorem HoldsText.known {a : Account} {text : Option String} {offset : Option Offset}
    (h : a.HoldsText text offset) : (RecordSlot.ofReference offset).Known a := by
  cases h with
  | none => exact trivial
  | some hmem => exact knows_of_mem hmem

end Account

section Texts

variable {forceDefaults : Bool} {a : Account}

/-- A step for something that may be absent. -/
private theorem writes_mapM {α β : Type} {f : α → Build β} {x : Option α} {cost : Nat}
    {R : α → β → Account → Prop} (h : ∀ y, x = some y → Writes forceDefaults a .idle (f y) cost
      (fun z a' stage => stage = .idle ∧ a'.Extends a ∧ R y z a')) :
    Writes forceDefaults a .idle (x.mapM f) cost
      (fun z a' stage => stage = .idle ∧ a'.Extends a ∧ Option.Rel (fun y z => R y z a') x z) := by
  cases x with
  | none => exact .of_pure_cost none ⟨rfl, .refl a, .none⟩
  | some y => exact (h y rfl).map fun z a' stage h => ⟨h.1, h.2.1, .some h.2.2⟩

/-- A text that may be missing is written, if it is there. -/
private theorem writes_text (text : Option String) :
    Writes forceDefaults a .idle (text.mapM Build.createString) (textLength text + 9)
      (fun offset a' stage => stage = .idle ∧ a'.Extends a ∧ a'.HoldsText text offset) := by
  refine writes_mapM fun text htext => ?_
  subst htext
  refine (writes_createString text).mono (Nat.le_refl _) fun offset a' stage h => ?_
  obtain ⟨rfl, rfl⟩ := h
  exact ⟨rfl, Account.extends_add _ _ _, List.mem_cons_self⟩

end Texts

/-! ### Destinations -/

/-- The slots of a destination, in the order in which they are written. -/
def Destination.slots (kind : DestinationKind) (name : Option Offset) :
    List (UInt16 × RecordSlot) :=
  [(1, .ofReference name), (0, .scalar .u8 kind.toByte DestinationKind.module.toByte)]

/-- A destination is its name, if it has one, and a record of two slots. -/
theorem Destination.create_eq (kind : DestinationKind) (target : Option String) :
    Destination.create kind target
      = target.mapM Build.createString >>= fun name => writeRecord 2 (slots kind name) := by
  refine bind_congr fun name => ?_
  cases name <;> simp [writeRecord, slots, RecordSlot.ofReference, RecordSlot.push]

/-- A destination was written under `offset`. -/
def Account.HoldsDestination (forceDefaults : Bool) (a : Account) (spec : DestinationSpec)
    (offset : Offset) : Prop :=
  ∃ name, a.HoldsText spec.target name ∧
    (offset, .object (recordFields forceDefaults (Destination.slots spec.kind name))) ∈ a.items

/-- A destination goes on being held by an account that tells of more. -/
theorem Account.HoldsDestination.mono {forceDefaults : Bool} {a a' : Account}
    {spec : DestinationSpec} {offset : Offset} (h : a.HoldsDestination forceDefaults spec offset)
    (hext : a'.Extends a) : a'.HoldsDestination forceDefaults spec offset := by
  obtain ⟨name, hname, hmem⟩ := h
  exact ⟨name, hname.mono hext, hext hmem⟩

theorem writes_destination {forceDefaults : Bool} {a : Account} (spec : DestinationSpec) :
    Writes forceDefaults a .idle spec.write (textLength spec.target + 9 + 56)
      (fun offset a' stage => stage = .idle ∧ a'.Extends a ∧
        a'.HoldsDestination forceDefaults spec offset) := by
  rw [DestinationSpec.write, Destination.create_eq]
  refine (writes_text spec.target).bind fun name a₁ stage₁ h₁ => ?_
  obtain ⟨rfl, hext, hname⟩ := h₁
  have hfit : SlotsFit a₁ 2 (Destination.slots spec.kind name) := by
    refine ⟨Nat.le_add_right 2 2, by simp [Destination.slots], by simp [Destination.slots], ?_⟩
    exact List.forall_mem_cons.mpr ⟨hname.known, List.forall_mem_singleton.mpr trivial⟩
  refine (writes_record (by decide) hfit).mono (Nat.le_refl _)
    fun offset a₂ stage₂ h₂ => ?_
  obtain ⟨rfl, hext', hmem⟩ := h₂
  exact ⟨rfl, hext.trans hext', name, hname.mono hext', hmem⟩

/-! ### Errors -/

/-- The slots of an error, in the order in which they are written. -/
def ErrorContent.slots (code : UInt16) (category reason : Option Offset) :
    List (UInt16 × RecordSlot) :=
  [(2, .ofReference reason), (1, .ofReference category), (0, .scalar .u16 code (0 : UInt16))]

/-- An error record is its texts, those that it has, and a record of three slots. -/
theorem ErrorContent.create_eq (code : UInt16) (category reason : Option String) :
    ErrorContent.create code category reason
      = category.mapM Build.createString >>= fun category =>
          reason.mapM Build.createString >>= fun reason =>
            writeRecord 3 (slots code category reason) := by
  refine bind_congr fun category => bind_congr fun reason => ?_
  cases reason <;> cases category <;>
    simp [writeRecord, slots, RecordSlot.ofReference, RecordSlot.push]

/-- An error was written under `offset`. -/
def Account.HoldsError (forceDefaults : Bool) (a : Account) (code : UInt16)
    (category reason : Option String) (offset : Offset) : Prop :=
  ∃ category' reason', a.HoldsText category category' ∧ a.HoldsText reason reason' ∧
    (offset, .object (recordFields forceDefaults (ErrorContent.slots code category' reason')))
      ∈ a.items

/-- An error record is written, with its texts before it. -/
private theorem writes_errorContent {forceDefaults : Bool} {a : Account} (code : UInt16)
    (category reason : Option String) :
    Writes forceDefaults a .idle (ErrorContent.create code category reason)
      (textLength category + 9 + (textLength reason + 9 + 74))
      (fun offset a' stage => stage = .idle ∧ a'.Extends a ∧
        a'.HoldsError forceDefaults code category reason offset) := by
  rw [ErrorContent.create_eq]
  refine (writes_text category).bind fun category' a₁ stage₁ h₁ => ?_
  obtain ⟨rfl, hext₁, hcategory⟩ := h₁
  refine (writes_text reason).bind fun reason' a₂ stage₂ h₂ => ?_
  obtain ⟨rfl, hext₂, hreason⟩ := h₂
  replace hcategory := hcategory.mono hext₂
  have hfit : SlotsFit a₂ 3 (ErrorContent.slots code category' reason') := by
    refine ⟨Nat.le_succ 3, by simp [ErrorContent.slots], by simp [ErrorContent.slots], ?_⟩
    exact List.forall_mem_cons.mpr ⟨hreason.known,
      List.forall_mem_cons.mpr ⟨hcategory.known, List.forall_mem_singleton.mpr trivial⟩⟩
  refine (writes_record (by decide) hfit).mono (Nat.le_refl _)
    fun offset a' stage h => ?_
  obtain ⟨rfl, hext', hmem⟩ := h
  exact ⟨rfl, (hext₁.trans hext₂).trans hext', category', reason', hcategory.mono hext',
    hreason.mono hext', hmem⟩

/-! ### Contents -/

/-- The empty object stands for a content without data. -/
private theorem writes_empty {forceDefaults : Bool} {a : Account} :
    Writes forceDefaults a .idle createEmpty 20
      (fun offset a' stage => stage = .idle ∧ a'.Extends a ∧
        (offset, .object (recordFields forceDefaults [])) ∈ a'.items) := by
  have hfit : SlotsFit a 0 [] :=
    ⟨Nat.zero_le 4, List.nodup_nil, List.forall_mem_nil _, List.forall_mem_nil _⟩
  exact writes_record (by decide) hfit

namespace ContentSpec

/-- The tag that a content is stored under. -/
def tag : ContentSpec → UInt8
  | noMessage => 1
  | error _ _ _ => 2
  | success => 3
  | raw tag => tag

/-- The number of bytes of the texts in a content. -/
def textLength : ContentSpec → Nat
  | error _ category reason => EnvelopeWire.textLength category + EnvelopeWire.textLength reason
  | noMessage | success | raw _ => 0

end ContentSpec

namespace Account

variable {forceDefaults : Bool} {a a' : Account} {spec : ContentSpec} {offset : Offset}

/-- The table of a content was written under `offset`. -/
def HoldsContent (forceDefaults : Bool) (a : Account) (spec : ContentSpec) (offset : Offset) :
    Prop :=
  match spec with
  | .error code category reason => a.HoldsError forceDefaults code category reason offset
  | .noMessage | .success | .raw _ => (offset, .object (recordFields forceDefaults [])) ∈ a.items

/-- A content goes on being held by an account that tells of more. -/
theorem HoldsContent.mono (h : a.HoldsContent forceDefaults spec offset) (hext : a'.Extends a) :
    a'.HoldsContent forceDefaults spec offset := by
  cases spec with
  | error code category reason =>
    obtain ⟨category', reason', hcategory, hreason, hmem⟩ := h
    exact ⟨category', reason', hcategory.mono hext, hreason.mono hext, hext hmem⟩
  | noMessage => exact hext h
  | success => exact hext h
  | raw tag => exact hext h

/-- A content is an object. -/
theorem HoldsContent.exists_object (h : a.HoldsContent forceDefaults spec offset) :
    ∃ fields, (offset, .object fields) ∈ a.items := by
  cases spec with
  | error code category reason =>
    obtain ⟨category', reason', -, -, hmem⟩ := h
    exact ⟨_, hmem⟩
  | noMessage => exact ⟨_, h⟩
  | success => exact ⟨_, h⟩
  | raw tag => exact ⟨_, h⟩

/-- A reference has the tag of a content, and the table of the content was written under it. -/
def HoldsReference (forceDefaults : Bool) (a : Account) (spec : ContentSpec)
    (content : ContentRef) : Prop :=
  content.tag = spec.tag ∧ a.HoldsContent forceDefaults spec content.offset

/-- What writing a content gives: a reference, unless the tag is zero. -/
def HoldsTagged (forceDefaults : Bool) (a : Account) (spec : ContentSpec) :
    Except EnvelopeError ContentRef → Prop
  | .ok content => spec ≠ .raw 0 ∧ a.HoldsReference forceDefaults spec content
  | .error e => spec = .raw 0 ∧ e = .reservedContentTag

end Account

theorem writes_content {forceDefaults : Bool} {a : Account} (spec : ContentSpec) :
    Writes forceDefaults a .idle spec.write (spec.textLength + 92)
      (fun content a' stage => stage = .idle ∧ a'.Extends a ∧
        a'.HoldsTagged forceDefaults spec content) := by
  -- All contents but an error are an object without fields and differ in their tag only.
  have hempty {f : Offset → Except EnvelopeError ContentRef}
      (hf : ∀ (a' : Account) (offset : Offset),
        (offset, .object (recordFields forceDefaults [])) ∈ a'.items →
          a'.HoldsTagged forceDefaults spec (f offset)) :
      Writes forceDefaults a .idle (createEmpty >>= fun offset => pure (f offset)) (20 + 0)
        (fun content a' stage => stage = .idle ∧ a'.Extends a ∧
          a'.HoldsTagged forceDefaults spec content) := by
    refine writes_empty.bind fun offset a' stage h => ?_
    exact .of_pure _ ⟨h.1, h.2.1, hf a' offset h.2.2⟩
  have hle : 20 + 0 ≤ spec.textLength + 92 := by omega
  cases spec with
  | noMessage =>
    have h := hempty
      (f := fun offset => .ok { tag := 1, offset := offset, tag_ne_zero := by decide })
      fun a' offset hmem => ⟨by simp, rfl, hmem⟩
    simpa only [ContentSpec.write, ContentRef.noMessage, bind_assoc, pure_bind] using
      h.mono hle fun _ _ _ h => h
  | success =>
    have h := hempty
      (f := fun offset => .ok { tag := 3, offset := offset, tag_ne_zero := by decide })
      fun a' offset hmem => ⟨by simp, rfl, hmem⟩
    simpa only [ContentSpec.write, ContentRef.success, bind_assoc, pure_bind] using
      h.mono hle fun _ _ _ h => h
  | raw tag =>
    have h := hempty (f := ContentRef.ofTag tag) fun a' offset hmem => by
      rw [ContentRef.ofTag]
      split
      case isTrue hzero =>
        subst hzero
        exact ⟨rfl, rfl⟩
      case isFalse hne =>
        exact ⟨fun heq => hne (ContentSpec.raw.inj heq), rfl, hmem⟩
    exact h.mono hle fun _ _ _ h => h
  | error code category reason =>
    have h : Writes forceDefaults a .idle
        (ErrorContent.create code category reason >>= fun offset =>
          pure (.ok { tag := 2, offset := offset, tag_ne_zero := by decide }))
        (textLength category + 9 + (textLength reason + 9 + 74) + 0)
        (fun content a' stage => stage = .idle ∧ a'.Extends a ∧
          a'.HoldsTagged forceDefaults (.error code category reason) content) := by
      refine (writes_errorContent code category reason).bind fun offset a' stage h => ?_
      exact .of_pure _ ⟨h.1, h.2.1, by simp, rfl, h.2.2⟩
    simp only [ContentSpec.write, ContentRef.error, bind_assoc, pure_bind]
    refine h.mono ?_ fun _ _ _ h => h
    rw [ContentSpec.textLength]
    omega

/-! ### Envelopes -/

/-- The slot of the tag of a content. -/
def ContentRef.tagSlot : Option ContentRef → RecordSlot
  | some content => .scalar .u8 content.tag (0 : UInt8)
  | none => .absent

/-- The slots of an envelope, in the order in which they are written. -/
def Envelope.slots (destination : Option Offset) (content : Option ContentRef) (id : Int32) :
    List (UInt16 × RecordSlot) :=
  [(3, .scalar .i32 id (0 : Int32)), (2, .ofReference (content.map (·.offset))),
    (0, .ofReference destination), (1, ContentRef.tagSlot content)]

/-- An envelope is a record of four slots. -/
theorem Envelope.create_eq (destination : Option Offset) (content : Option ContentRef)
    (id : Int32) :
    Envelope.create destination content id = writeRecord 4 (slots destination content id) := by
  refine bind_congr fun _ => ?_
  cases content <;> cases destination <;>
    simp [fieldsOf, EnvelopeField.push, slots, RecordSlot.ofReference, RecordSlot.push,
      ContentRef.tagSlot]

/-- The envelope of a description was written under `root`. -/
def Account.HoldsEnvelope (forceDefaults : Bool) (a : Account) (d : Description) (root : Offset) :
    Prop :=
  ∃ destination content,
    Option.Rel (a.HoldsDestination forceDefaults) d.destination destination ∧
    Option.Rel (a.HoldsReference forceDefaults) d.content content ∧
    (root, .object (recordFields forceDefaults (Envelope.slots destination content d.id))) ∈ a.items

namespace Description

/-- The number of bytes of the texts in a description. -/
def textLength (d : Description) : Nat :=
  EnvelopeWire.textLength (d.destination.bind (·.target))
    + (d.content.map (·.textLength)).getD 0

/-- `data` is a finished buffer with the described envelope at its root. -/
def StandsIn (forceDefaults : Bool) (d : Description) (data : Bytes) : Prop :=
  ∃ (a : Account) (draft : Draft) (root : Offset), draft.written = data ∧ a.Describes draft ∧
    (Stage.finished root).Matches draft ∧ a.HoldsEnvelope forceDefaults d root

/-- What writing a description gives: a buffer with the envelope, unless the content is tagged as
none. -/
def Gives (forceDefaults : Bool) (d : Description) : Except EnvelopeError Bytes → Prop
  | .ok data => d.content ≠ some (.raw 0) ∧ d.StandsIn forceDefaults data
  | .error e => d.content = some (.raw 0) ∧ e = .reservedContentTag

variable {forceDefaults : Bool} {a : Account}

theorem writes_envelope (d : Description) {destination : Option Offset}
    {content : Option ContentRef}
    (hdestination : Option.Rel (a.HoldsDestination forceDefaults) d.destination destination)
    (hcontent : Option.Rel (a.HoldsReference forceDefaults) d.content content) :
    Writes forceDefaults a .idle (Envelope.create destination content d.id) 92
      (fun root a' stage => stage = .idle ∧ a'.HoldsEnvelope forceDefaults d root) := by
  have hfit : SlotsFit a 4 (Envelope.slots destination content d.id) := by
    refine ⟨Nat.le_refl 4, by simp [Envelope.slots], by simp [Envelope.slots], ?_⟩
    have hdestinationKnown : (RecordSlot.ofReference destination).Known a := by
      generalize d.destination = spec at hdestination
      cases hdestination with
      | none => exact trivial
      | some h =>
        obtain ⟨name, -, hmem⟩ := h
        exact Account.knows_of_mem hmem
    have hcontentKnown : (RecordSlot.ofReference (content.map (·.offset))).Known a ∧
        (ContentRef.tagSlot content).Known a := by
      generalize d.content = spec at hcontent
      cases hcontent with
      | none => exact ⟨trivial, trivial⟩
      | some h =>
        obtain ⟨fields, hmem⟩ := h.2.exists_object
        exact ⟨Account.knows_of_mem hmem, trivial⟩
    exact List.forall_mem_cons.mpr ⟨trivial, List.forall_mem_cons.mpr ⟨hcontentKnown.1,
      List.forall_mem_cons.mpr ⟨hdestinationKnown, List.forall_mem_singleton.mpr hcontentKnown.2⟩⟩⟩
  rw [Envelope.create_eq]
  refine (writes_record (by decide) hfit).mono (Nat.le_refl _)
    fun root a' stage h => ?_
  obtain ⟨rfl, hext, hroot⟩ := h
  exact ⟨rfl, destination, content, optionRel_mono (fun _ _ h => h.mono hext) hdestination,
    optionRel_mono (fun _ _ h => ⟨h.1, h.2.mono hext⟩) hcontent, hroot⟩

/-- The last steps: the envelope is written around its parts, and the buffer is finished. -/
private theorem writes_finished (d : Description) {destination : Option Offset}
    {content : Option ContentRef}
    (hdestination : Option.Rel (a.HoldsDestination forceDefaults) d.destination destination)
    (hcontent : Option.Rel (a.HoldsReference forceDefaults) d.content content) :
    Writes forceDefaults a .idle (writeEnvelope d.id destination content) (92 + (16 + 0))
      (fun data _ _ => d.StandsIn forceDefaults data) := by
  rw [writeEnvelope]
  refine (d.writes_envelope hdestination hcontent).bind fun root a₁ stage₁ h₁ => ?_
  obtain ⟨rfl, henvelope⟩ := h₁
  have hroot : a₁.Knows root := by
    obtain ⟨_, _, -, -, hmem⟩ := henvelope
    exact Account.knows_of_mem hmem
  refine (writes_finish hroot).bind fun _ a₂ stage₂ h₂ => ?_
  obtain ⟨rfl, rfl⟩ := h₂
  refine (writes_finishedData .takeFinishedData).mono (Nat.le_refl _) fun data a₃ stage₃ h₃ => ?_
  obtain ⟨rfl, rfl, draft, hdata, hdescribes, hmatches⟩ := h₃
  exact ⟨a₃, draft, root, hdata, hdescribes, hmatches, henvelope⟩

/-- **Writing a description** gives a buffer with the envelope, or the error that the tag of the
content is reserved, where there is room for the texts and some 300 bytes. -/
theorem writes_description (d : Description) :
    Writes forceDefaults a .idle d.write (d.textLength + 300)
      (fun result _ _ => d.Gives forceDefaults result) := by
  have hdestination : Writes forceDefaults a .idle (d.destination.mapM DestinationSpec.write)
      (EnvelopeWire.textLength (d.destination.bind (·.target)) + 9 + 56)
      (fun destination a' stage => stage = .idle ∧ a'.Extends a ∧
        Option.Rel (a'.HoldsDestination forceDefaults) d.destination destination) := by
    refine writes_mapM fun spec hspec => ?_
    rw [hspec]
    exact writes_destination spec
  have hcontent (a' : Account) : Writes forceDefaults a' .idle (d.content.mapM ContentSpec.write)
      ((d.content.map (·.textLength)).getD 0 + 92)
      (fun content a'' stage => stage = .idle ∧ a''.Extends a' ∧
        Option.Rel (a''.HoldsTagged forceDefaults) d.content content) := by
    refine writes_mapM fun spec hspec => ?_
    rw [hspec]
    exact writes_content spec
  have hfinished {a' : Account} {destination : Option Offset} {content : Option ContentRef}
      (hdestination : Option.Rel (a'.HoldsDestination forceDefaults) d.destination destination)
      (hcontent : Option.Rel (a'.HoldsReference forceDefaults) d.content content)
      (hraw : d.content ≠ some (.raw 0)) :
      Writes forceDefaults a' .idle
        (writeEnvelope d.id destination content >>= fun data => pure (.ok data))
        (92 + (16 + 0) + 0) (fun result _ _ => d.Gives forceDefaults result) :=
    (writes_finished d hdestination hcontent).bind fun data _ _ h => .of_pure _ ⟨hraw, h⟩
  have hwrite : Writes forceDefaults a .idle d.write
      (EnvelopeWire.textLength (d.destination.bind (·.target)) + 9 + 56
        + ((d.content.map (·.textLength)).getD 0 + 92 + (92 + (16 + 0) + 0)))
      (fun result _ _ => d.Gives forceDefaults result) := by
    rw [write]
    refine hdestination.bind fun destination a₁ stage₁ h₁ => ?_
    obtain ⟨rfl, -, hdestination⟩ := h₁
    refine (hcontent a₁).bind fun content a₂ stage₂ h₂ => ?_
    obtain ⟨rfl, hext, hcontent⟩ := h₂
    -- Writing the content leaves the destination where it is.
    replace hdestination := optionRel_mono (fun _ _ h => h.mono hext) hdestination
    generalize hspec : d.content = spec at hcontent
    cases hcontent with
    | none => exact hfinished hdestination (hspec ▸ .none) (hspec ▸ (Option.some_ne_none _).symm)
    | @some spec content hholds =>
      cases content with
      | error e =>
        obtain ⟨rfl, rfl⟩ := hholds
        exact .of_pure_cost _ ⟨hspec, rfl⟩
      | ok content =>
        obtain ⟨hraw, hcontent⟩ := hholds
        refine hfinished hdestination (hspec ▸ .some hcontent) fun heq => hraw ?_
        exact Option.some_inj.mp (hspec.symm.trans heq)
  refine hwrite.mono ?_ fun _ _ _ h => h
  rw [textLength]
  omega

end Description

end EnvelopeWire
