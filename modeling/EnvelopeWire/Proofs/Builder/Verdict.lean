import EnvelopeWire.Proofs.Builder.Program

/-!
# Which instructions are refused

Which call of a program is refused, and for what, can be told from its outline: from how far it has
come, the number of things that it has created, and the slots of the open object that are written.
Offsets do not matter, and neither does how much is written, as long as no limit on sizes is
reached.

* `Outline.misuse?`: what an instruction is refused for, judged from the outline.
* `Outline.StandsIn.obeys`: it is refused for that, unless a limit on sizes stops it before.
* `Outline.StandsIn.writtenTwice_iff`: when a push is refused as a second write.
-/

namespace EnvelopeWire

/-- A failure that depends on how much is written: the limits on the buffer and on the objects. -/
def Failure.IsSizeLimit : Failure → Prop
  | bufferLimit | vectorLimit _ | misuse (.objectTooLarge _) => True
  | misuse _ | outOfRange => False

/-- Want of room is a size limit. -/
private theorem Failure.isSizeLimit_of_isLimit {e : Failure} (h : e.isLimit = true) :
    e.IsSizeLimit := by
  cases e with
  | bufferLimit | vectorLimit => trivial
  | misuse | outOfRange => cases h

/-! ### Judging an instruction -/

/-- Nothing is written for a push: its value agrees with the default, and defaults are not
forced. -/
def Push.elided (forceDefaults : Bool) : Push → Bool
  | scalar type value default => type.agrees value default && !forceDefaults
  | reference _ => false

/-- The call that a push is. -/
def Push.operation : Push → Operation
  | scalar _ _ _ => .pushSlot
  | reference _ => .pushSlotOffset

/-- A reference has to be to one of the first `count` things. -/
def referenceMisuse? (count number : Nat) : Option Misuse :=
  if number < count then none else some (.danglingOffset 0)

/-- What a push is refused for, in a slot that it may write, after `count` things. -/
def Push.misuse? (count : Nat) : Push → Option Misuse
  | scalar _ _ _ => none
  | reference number => referenceMisuse? count number

/-- What opening an object with `fields` slots is refused for. -/
def Progress.whenStarted (p : Progress) (fields : UInt16) : Option Misuse :=
  match p with
  | idle => if fields.toNat ≤ maxFields then none else some (.tooManyFields fields.toNat)
  | building _ => some .nestedObject
  | finished _ => some (.alreadyFinished .startObject)

/-- What a call is refused for that needs that no object is open and the buffer is not finished. -/
def Progress.whenIdle (p : Progress) (op : Operation) (rest : Option Misuse) : Option Misuse :=
  match p with
  | idle => rest
  | building _ => some (.objectOpen op)
  | finished _ => some (.alreadyFinished op)

/-- What a call is refused for that needs an open object. -/
def Progress.whenBuilding (p : Progress) (op : Operation) (rest : UInt16 → Option Misuse) :
    Option Misuse :=
  match p with
  | idle => some (.noOpenObject op)
  | building count => rest count
  | finished _ => some (.alreadyFinished op)

/-- What a call is refused for that needs a finished buffer. -/
def Progress.whenFinished (p : Progress) (op : Operation) : Option Misuse :=
  match p with
  | finished _ => none
  | idle | building _ => some (.notFinished op)

namespace Outline

/-- A push to `slot` was written. -/
def Writes (forceDefaults : Bool) (o : Outline) (slot : UInt16) : Prop :=
  ∃ q ∈ o.pushes, q.1 = slot ∧ q.2.elided forceDefaults = false

instance (forceDefaults : Bool) (o : Outline) (slot : UInt16) :
    Decidable (o.Writes forceDefaults slot) :=
  inferInstanceAs (Decidable (∃ q ∈ o.pushes, q.1 = slot ∧ q.2.elided forceDefaults = false))

/-- What an instruction is refused for, the limits on sizes aside. -/
def misuse? (forceDefaults : Bool) (o : Outline) : Instruction → Option Misuse
  | .startObject fields => o.progress.whenStarted fields
  | .push slot what =>
    o.progress.whenBuilding what.operation fun count =>
      if slot < count then
        if o.Writes forceDefaults slot then some (.slotWrittenTwice what.operation slot.toNat)
        else what.misuse? o.things.length
      else some (.slotOutOfRange what.operation slot.toNat count.toNat)
  | .endObject => o.progress.whenBuilding .endObject fun _ => none
  | .createString _ => o.progress.whenIdle .createString none
  | .createByteVector _ => o.progress.whenIdle .createByteVector none
  | .finish root => o.progress.whenIdle .finish (referenceMisuse? o.things.length root)
  | .reset => none
  | .finishedData => o.progress.whenFinished .finishedData
  | .takeFinishedData => o.progress.whenFinished .takeFinishedData

variable {o : Outline}

/-- A push to an open object is judged by its slot, then by what was pushed there, then by its
target. -/
theorem misuse?_push_of_building {f : Bool} {count : UInt16} (h : o.progress = .building count)
    (slot : UInt16) (what : Push) :
    o.misuse? f (.push slot what) =
      if slot < count then
        if o.Writes f slot then some (.slotWrittenTwice what.operation slot.toNat)
        else what.misuse? o.things.length
      else some (.slotOutOfRange what.operation slot.toNat count.toNat) := by
  rw [misuse?, h]
  rfl

/-- A slot is written twice exactly when the open object has it and writes it already. -/
private theorem misuse?_eq_writtenTwice_iff {f : Bool} {slot : UInt16} {what : Push} :
    o.misuse? f (.push slot what) = some (.slotWrittenTwice what.operation slot.toNat) ↔
      ∃ count, o.progress = .building count ∧ slot < count ∧ o.Writes f slot := by
  constructor
  · intro hmisuse
    cases hprogress : o.progress with
    | idle =>
      rw [misuse?, hprogress] at hmisuse
      cases hmisuse
    | finished root =>
      rw [misuse?, hprogress] at hmisuse
      cases hmisuse
    | building count =>
      rw [misuse?_push_of_building hprogress] at hmisuse
      split_ifs at hmisuse with hslot hwrites
      · exact ⟨count, rfl, hslot, hwrites⟩
      · cases what with
        | scalar => cases hmisuse
        | reference number =>
          rw [Push.misuse?, referenceMisuse?] at hmisuse
          split at hmisuse <;> cases hmisuse
      · cases hmisuse
  · rintro ⟨count, hprogress, hslot, hwrites⟩
    rw [misuse?_push_of_building hprogress, if_pos hslot, if_pos hwrites]

end Outline

/-! ### Calls that are refused as the outline says -/

/-- `x` fails for the misuse if there is one and gives a result otherwise, unless it fails for a
limit on sizes. -/
def Obeys {α : Type} (cause : Option Misuse) : Except Failure α → Prop
  | .ok _ => cause = none
  | .error e => e.IsSizeLimit ∨ ∃ misuse, e = .misuse misuse ∧ cause = some misuse

namespace Obeys

variable {α β : Type} {cause : Option Misuse} {x : Except Failure α}

/-- What fails only for want of room is no misuse. -/
private theorem of_fits {size : Nat} {Q : α → Prop} (h : Fits size Q x) : Obeys none x := by
  cases x with
  | error e => exact .inl (Failure.isSizeLimit_of_isLimit h.1)
  | ok a => rfl

private theorem refused {misuse : Misuse} (hx : x = .error (.misuse misuse)) :
    Obeys (some misuse) x := by
  rw [hx]
  exact .inr ⟨misuse, rfl, rfl⟩

/-- What is made of a result does not change the verdict. -/
private theorem of_map {f : α → β} (h : Obeys cause (x.map f)) : Obeys cause x := by
  cases x with
  | error e => exact h
  | ok a => exact h

/-- A step that only sizes can stop, then one that is refused. -/
private theorem bind {y : Except Failure β} {next : β → Except Failure α} {size : Nat}
    {Q : β → Prop} (hy : Fits size Q y) (hnext : ∀ b, y = .ok b → Obeys cause (next b)) :
    Obeys cause (y >>= next) := by
  cases y with
  | error e => exact .inl (Failure.isSizeLimit_of_isLimit hy.1)
  | ok b => exact hnext b rfl

end Obeys

/-- The slots of the fields that pushes leave are those that were written. -/
private theorem forall_mem_pushedFields {forceDefaults : Bool} (known : List Offset) {o : Outline}
    {slot : UInt16} :
    (∀ f ∈ pushedFields forceDefaults known o.pushes, f.slot ≠ slot) ↔
      ¬ o.Writes forceDefaults slot := by
  rw [Outline.Writes, pushedFields]
  induction o.pushes with
  | nil => simp [recordFields]
  | cons q pushes ih =>
    have hhead : (∀ f ∈ ((q.2.slot known).value forceDefaults).map fun value =>
          ({ slot := q.1, value := value } : Field), f.slot ≠ slot) ↔
        ¬ (q.1 = slot ∧ q.2.elided forceDefaults = false) := by
      cases hwhat : q.2 with
      | scalar type value default =>
        cases helided : type.agrees value default && !forceDefaults <;>
          simp [Push.slot, RecordSlot.value, Push.elided, helided]
      | reference number => simp [Push.slot, RecordSlot.value, Push.elided]
    rw [List.map_cons, recordFields, List.forall_mem_append, ih, List.exists_mem_cons_iff, not_or,
      and_comm, ← hhead]
    simp only [Option.mem_toList, Option.mem_def]

section Stages

variable {p : Progress} {known : List Offset} {d : Draft} {α : Type}

/-- The verdict on starting an object. -/
private theorem Progress.obeys_whenStarted (h : (p.stage known).Matches d) {fields : UInt16}
    {next : Unit → Except Failure α} (hidle : p = .idle → fields.toNat ≤ maxFields →
      Obeys none (d.phase.checkStart fields >>= next)) :
    Obeys (p.whenStarted fields) (d.phase.checkStart fields >>= next) := by
  cases p with
  | idle =>
    rw [whenStarted]
    split
    case isTrue hfields => exact hidle rfl hfields
    case isFalse hfields =>
      rw [show d.phase = .idle from h, Phase.checkStart, ensure_eq_error_iff.mpr ⟨hfields, rfl⟩]
      exact .refused rfl
  | building count =>
    obtain ⟨start, hphase⟩ := h
    rw [hphase]
    exact .refused rfl
  | finished root =>
    rw [h.1]
    exact .refused rfl

/-- The verdict on a call that needs an idle builder. -/
private theorem Progress.obeys_whenIdle (h : (p.stage known).Matches d) {op : Operation}
    {rest : Option Misuse} {next : Unit → Except Failure α}
    (hidle : p = .idle → d.phase = .idle → Obeys rest (d.phase.checkIdle op >>= next)) :
    Obeys (p.whenIdle op rest) (d.phase.checkIdle op >>= next) := by
  cases p with
  | idle => exact hidle rfl h
  | building count =>
    obtain ⟨start, hphase⟩ := h
    rw [hphase]
    exact .refused rfl
  | finished root =>
    rw [h.1]
    exact .refused rfl

/-- The verdict on a call that needs a finished buffer. -/
private theorem Progress.obeys_whenFinished (h : (p.stage known).Matches d) {op : Operation}
    {next : Unit → Except Failure α}
    (hfinished : (∃ root, p = .finished root) → Obeys none (d.phase.checkFinished op >>= next)) :
    Obeys (p.whenFinished op) (d.phase.checkFinished op >>= next) := by
  cases p with
  | idle =>
    rw [show d.phase = .idle from h]
    exact .refused rfl
  | building count =>
    obtain ⟨start, hphase⟩ := h
    rw [hphase]
    exact .refused rfl
  | finished root => exact hfinished ⟨root, rfl⟩

/-- The verdict on a call that needs an open object. -/
private theorem Progress.obeys_whenBuilding (h : (p.stage known).Matches d) {op : Operation}
    {rest : UInt16 → Option Misuse} {x : Except Failure α}
    (hidle : d.phase = .idle → x = .error (.misuse (.noOpenObject op)))
    (hfinished : d.phase = .finished → x = .error (.misuse (.alreadyFinished op)))
    (hopen : ∀ start count, p = .building count → d.phase = .building start count →
      Obeys (rest count) x) :
    Obeys (p.whenBuilding op rest) x := by
  cases p with
  | idle => exact .refused (hidle h)
  | building count =>
    obtain ⟨start, hphase⟩ := h
    exact hopen start count rfl hphase
  | finished root => exact .refused (hfinished h.1)

end Stages

/-- A reference to nothing is refused, unless there is no room for the padding. -/
private theorem Draft.obeys_putReference_zero (d : Draft) {α : Type}
    (next : Draft → Except Failure α) :
    Obeys (some (.danglingOffset 0)) (d.putReference ⟨0⟩ >>= next) := by
  rw [putReference, bind_assoc]
  refine .bind (fits_pad d (Nat.le_refl _)) fun p _ => .refused ?_
  rw [ensure_eq_error_iff.mpr ⟨fun h => Nat.lt_irrefl 0 h.1, rfl⟩]
  rfl

/-- A push first checks its slot. -/
private theorem Draft.exists_perform_push (d : Draft) (known : List Offset) (slot : UInt16)
    (what : Push) :
    ∃ next, d.perform ((Instruction.push slot what).call known)
      = d.phase.checkSlot d.fields what.operation slot >>= next := by
  cases what <;> exact ⟨_, rfl⟩

/-- A result that is not there yet has the place zero, which is never good. -/
private theorem placeOf_of_le {known : List Offset} {number : Nat} (h : known.length ≤ number) :
    placeOf known number = ⟨0⟩ :=
  List.getD_eq_default _ _ h

namespace Outline.StandsIn

variable {forceDefaults : Bool} {known : List Offset} {o : Outline} {d : Draft}

/-- The slot check of a push, in an open object. -/
private theorem checkSlot_eq (h : o.StandsIn forceDefaults known d) {start : Nat} {count : UInt16}
    (hphase : d.phase = .building start count) (op : Operation) (slot : UInt16) :
    d.phase.checkSlot d.fields op slot =
      if slot < count then
        if o.Writes forceDefaults slot then .error (.misuse (.slotWrittenTwice op slot.toNat))
        else .ok ()
      else .error (.misuse (.slotOutOfRange op slot.toNat count.toNat)) := by
  obtain ⟨a, htold, hready⟩ := h
  have hmarks : d.fields.all (·.slot != slot) = true ↔ ¬ o.Writes forceDefaults slot := by
    rw [(hready.describes.openObject start count hphase).fields_eq, htold.fields,
      ← forall_mem_pushedFields known]
    simp only [List.all_eq_true, bne_iff_ne]
    exact forall_mem_marks (p := (· ≠ slot))
  rw [hphase, Phase.checkSlot]
  simp only [ensure, hmarks]
  split_ifs <;> rfl

/-- A push obeys the verdict on it. -/
private theorem obeys_push (h : o.StandsIn forceDefaults known d) (slot : UInt16) (what : Push) :
    Obeys (o.misuse? forceDefaults (.push slot what))
      (d.perform ((Instruction.push slot what).call known)) := by
  obtain ⟨a, htold, hready⟩ := id h
  obtain ⟨next, hnext⟩ := d.exists_perform_push known slot what
  refine Progress.obeys_whenBuilding hready.stage ?_ ?_ fun start count hprogress hphase => ?_
  · intro hphase
    rw [hnext, hphase]
    rfl
  · intro hphase
    rw [hnext, hphase]
    rfl
  · have hcheck := h.checkSlot_eq hphase what.operation slot
    split
    case isFalse hslot =>
      rw [if_neg hslot] at hcheck
      rw [hnext, hcheck]
      exact .refused rfl
    case isTrue hslot =>
      rw [if_pos hslot] at hcheck
      split
      case isTrue hwrites =>
        rw [if_pos hwrites] at hcheck
        rw [hnext, hcheck]
        exact .refused rfl
      case isFalse hfree =>
        rw [if_neg hfree] at hcheck
        have hadmits (hscope : what.InScope o.things.length) :
            o.Admits forceDefaults known (.push slot what) :=
          ⟨⟨count, hprogress, hslot⟩, (forall_mem_pushedFields known).mpr hfree, hscope⟩
        cases what with
        | scalar type value default => exact .of_fits (h.fits_of_admits (hadmits trivial))
        | reference number =>
          rw [Push.misuse?, referenceMisuse?]
          split
          case isTrue hlt => exact .of_fits (h.fits_of_admits (hadmits hlt))
          case isFalse hge =>
            rw [← htold.length_eq, Nat.not_lt] at hge
            have hcheck : d.phase.checkSlot d.fields .pushSlotOffset slot = .ok () := hcheck
            rw [Instruction.call, Draft.perform, hcheck, placeOf_of_le hge]
            exact d.obeys_putReference_zero _

/-- Too long an object is refused, unless there is no room for the padding. -/
private theorem exists_limit_of_closeObject (h : o.StandsIn forceDefaults known d) {start : Nat}
    {count : UInt16} (hphase : d.phase = .building start count)
    (hlength : ¬ objectLength (pushedFields forceDefaults known o.pushes) ≤ 65535) :
    ∃ e, d.closeObject start = .error e ∧ e.IsSizeLimit := by
  obtain ⟨a, htold, hready⟩ := h
  have hopen := hready.describes.openObject start count hphase
  rw [Draft.closeObject]
  cases hpad : d.pad 4 4 with
  | error e =>
    obtain ⟨-, rfl⟩ := Draft.put_eq_error_iff.mp hpad
    exact ⟨_, rfl, trivial⟩
  | ok p =>
    obtain ⟨-, hobject, -, -⟩ := hopen.padded hpad
    rw [htold.fields] at hobject
    by_cases hroom : p.used + 4 ≤ maxBufferSize
    · have hdifference : difference (p.used + 4) start = .ok (p.used + 4 - start) :=
        difference_eq_ok_iff.mpr ⟨by omega, rfl⟩
      refine ⟨.misuse (.objectTooLarge (p.used + 4 - start)), ?_, trivial⟩
      simp only [bind, Except.bind, ensure, if_pos hroom, hdifference]
      rw [if_neg (by omega)]
    · refine ⟨.bufferLimit, ?_, trivial⟩
      simp only [bind, Except.bind, ensure, if_neg hroom]

/-- The end of an object obeys the verdict on it. -/
private theorem obeys_endObject (h : o.StandsIn forceDefaults known d) :
    Obeys (o.misuse? forceDefaults .endObject) (d.perform .endObject) := by
  obtain ⟨a, htold, hready⟩ := id h
  refine Progress.obeys_whenBuilding hready.stage ?_ ?_ fun start count hprogress hphase => ?_
  · intro hphase
    rw [Draft.perform, hphase]
    rfl
  · intro hphase
    rw [Draft.perform, hphase]
    rfl
  · by_cases hlength : objectLength (pushedFields forceDefaults known o.pushes) ≤ 65535
    · have hadmits : o.Admits forceDefaults known .endObject := ⟨⟨count, hprogress⟩, hlength⟩
      exact .of_fits (h.fits_of_admits hadmits)
    · obtain ⟨e, hclose, he⟩ := h.exists_limit_of_closeObject hphase hlength
      rw [Draft.perform, hphase]
      change Obeys none (d.closeObject start >>= _)
      rw [hclose]
      exact .inl he

/-- **An instruction is refused as the outline says**, unless a limit on sizes stops it. -/
theorem obeys (h : o.StandsIn forceDefaults known d) (instruction : Instruction) :
    Obeys (o.misuse? forceDefaults instruction) (d.perform (instruction.call known)) := by
  obtain ⟨a, htold, hready⟩ := id h
  cases instruction with
  | startObject fields =>
    refine Progress.obeys_whenStarted hready.stage fun hidle hfields => ?_
    have hadmits : o.Admits forceDefaults known (.startObject fields) := ⟨hidle, hfields⟩
    exact .of_fits (h.fits_of_admits hadmits)
  | push slot what => exact h.obeys_push slot what
  | endObject => exact h.obeys_endObject
  | createString text =>
    refine Progress.obeys_whenIdle hready.stage fun hidle hphase => ?_
    have hadmits : o.Admits forceDefaults known (.createString text) := hidle
    exact .of_fits (h.fits_of_admits hadmits)
  | createByteVector bytes =>
    refine Progress.obeys_whenIdle hready.stage fun hidle hphase => ?_
    have hadmits : o.Admits forceDefaults known (.createByteVector bytes) := hidle
    exact .of_fits (h.fits_of_admits hadmits)
  | finish root =>
    refine Progress.obeys_whenIdle hready.stage fun hidle hphase => ?_
    rw [referenceMisuse?]
    split
    case isTrue hlt =>
      have hadmits : o.Admits forceDefaults known (.finish root) := ⟨hidle, hlt⟩
      exact .of_fits (h.fits_of_admits hadmits)
    case isFalse hge =>
      rw [← htold.length_eq, Nat.not_lt] at hge
      rw [placeOf_of_le hge, hphase]
      change Obeys _ (d.pad 4 d.minAlign >>= _)
      refine .bind (Draft.fits_pad d (Nat.le_refl _)) fun p _ => ?_
      exact p.obeys_putReference_zero _
  | reset => rfl
  | finishedData =>
    refine Progress.obeys_whenFinished hready.stage fun hfinished => ?_
    have hadmits : o.Admits forceDefaults known .finishedData := hfinished
    exact .of_fits (h.fits_of_admits hadmits)
  | takeFinishedData =>
    refine Progress.obeys_whenFinished hready.stage fun hfinished => ?_
    have hadmits : o.Admits forceDefaults known .takeFinishedData := hfinished
    exact .of_fits (h.fits_of_admits hadmits)

/-- The same of the builder that shows the draft. -/
theorem obeys_run {b : Builder} (h : o.StandsIn forceDefaults known b.draft)
    (instruction : Instruction) :
    Obeys (o.misuse? forceDefaults instruction) ((instruction.call known).run b) := by
  have hobeys := h.obeys instruction
  obtain ⟨a, -, hready⟩ := h
  rw [← Builder.perform_draft _ hready.describes.vtablesWritten] at hobeys
  exact hobeys.of_map

/-- A push is refused as a second write exactly where there is a first one in the open object. -/
theorem writtenTwice_iff {b : Builder} (h : o.StandsIn forceDefaults known b.draft) (slot : UInt16)
    (what : Push) :
    ((Instruction.push slot what).call known).run b
        = .error (.misuse (.slotWrittenTwice what.operation slot.toNat)) ↔
      ∃ count, o.progress = .building count ∧ slot < count ∧ o.Writes forceDefaults slot := by
  constructor
  · intro hrun
    have hobeys := h.obeys_run (.push slot what)
    rw [hrun] at hobeys
    obtain hlimit | ⟨_, heq, hmisuse⟩ := hobeys
    · cases hlimit
    · cases heq
      exact misuse?_eq_writtenTwice_iff.mp hmisuse
  · rintro ⟨count, hprogress, hslot, hwrites⟩
    obtain ⟨a, htold, hready⟩ := id h
    have hstage := hready.stage
    rw [hprogress] at hstage
    obtain ⟨start, hphase⟩ := hstage
    have hcheck := h.checkSlot_eq hphase what.operation slot
    rw [if_pos hslot, if_pos hwrites] at hcheck
    obtain ⟨next, hnext⟩ := b.draft.exists_perform_push known slot what
    rw [hcheck] at hnext
    rw [← Builder.perform_draft _ hready.describes.vtablesWritten] at hnext
    exact map_eq_error_iff.mp hnext

end Outline.StandsIn

end EnvelopeWire
