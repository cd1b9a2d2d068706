import EnvelopeWire.Proofs.Description.Encode

/-!
# What was given out earlier

The steps that write an envelope are given offsets that other steps gave out earlier in the same
buffer, with any calls in between. `Builder.Gave` says that a step gave out something since the last
reset. What the step wrote then stands still, whatever was written in front of it, so there is an
account that tells of it.

* `OfCalls`: the steps that write the parts of an envelope are made of calls.
* `Builder.Gave.after`: what was given out stays so through further steps.
* `Builder.Gave.holds`: what a step gave out still stands.
* `Account.Describes.both`: what two accounts tell of holds together.
* `Account.Describes.writeRecord`: what is known of a record that was written.
-/

namespace EnvelopeWire

/-! ### Steps that need an idle builder -/

/-- A step goes through only where no object is open and the buffer is not finished. -/
def NeedsIdle {α : Type} (step : Build α) : Prop :=
  ∀ b p, step b = .ok p → b.phase = .idle

namespace NeedsIdle

variable {α β γ : Type}

/-- Steps in sequence need an idle builder when the first one does. -/
private theorem bind {step : Build α} (h : NeedsIdle step) (next : α → Build β) :
    NeedsIdle (step >>= next) := by
  intro b p hrun
  obtain ⟨q, hstep, -⟩ := bind_eq_ok_iff.mp hrun
  exact h b q hstep

private theorem startObject (count : UInt16) : NeedsIdle (Build.startObject count) := by
  intro b p hrun
  obtain ⟨_, hchecked, -⟩ := bind_eq_ok_iff.mp hrun
  exact (Phase.checkStart_eq_ok_iff.mp hchecked).1

private theorem createString (text : String) : NeedsIdle (Build.createString text) := by
  intro b p hrun
  obtain ⟨_, hchecked, -⟩ := bind_eq_ok_iff.mp hrun
  exact Phase.checkIdle_eq_ok_iff.mp hchecked

/-- A text that may be absent, with a step after it. -/
private theorem text_bind (text : Option String) {next : Option Offset → Build β}
    (hnext : NeedsIdle (next none)) :
    NeedsIdle (text.mapM Build.createString >>= next) := by
  cases text with
  | none => exact hnext
  | some text =>
    have hstep := ((createString text).bind fun offset => pure (some offset)).bind next
    rwa [← map_eq_pure_bind] at hstep

/-- A record begins with the start of an object. -/
private theorem writeRecord (count : UInt16) (slots : List (UInt16 × RecordSlot)) :
    NeedsIdle (writeRecord count slots) := (startObject count).bind _

/-- A destination is written by an idle builder only. -/
theorem destination (spec : DestinationSpec) : NeedsIdle spec.write := by
  rw [DestinationSpec.write, Destination.create_eq]
  exact text_bind _ (writeRecord _ _)

private theorem errorContent (code : UInt16) (category reason : Option String) :
    NeedsIdle (ErrorContent.create code category reason) := by
  rw [ErrorContent.create_eq]
  exact text_bind _ (text_bind _ (writeRecord _ _))

/-- A content is written by an idle builder only, be it the empty object or an error record. -/
theorem content (spec : ContentSpec) : NeedsIdle spec.write := by
  cases spec with
  | noMessage | success => exact (((startObject 0).bind _).bind _).bind _
  | raw tag => exact ((startObject 0).bind _).bind _
  | error code category reason => exact ((errorContent code category reason).bind _).bind _

end NeedsIdle

/-! ### Steps that are made of calls -/

/-- Calls after calls. -/
private theorem runCalls_append {calls more : List Call} {replies rest : List Reply}
    {b e b' : Builder} (h : runCalls calls b = .ok (replies, e))
    (hmore : runCalls more e = .ok (rest, b')) :
    runCalls (calls ++ more) b = .ok (replies ++ rest, b') := by
  induction calls generalizing b replies with
  | nil =>
    cases h
    exact hmore
  | cons call calls ih =>
    obtain ⟨⟨reply, f⟩, hcall, hrest⟩ := bind_eq_ok_iff.mp h
    obtain ⟨⟨replies', g⟩, hcalls, heq⟩ := bind_eq_ok_iff.mp hrest
    cases heq
    exact bind_eq_ok_iff.mpr ⟨_, hcall, bind_eq_ok_iff.mpr ⟨_, ih hcalls, rfl⟩⟩

/-- What the step does, calls do, none of which is a reset. -/
def OfCalls {α : Type} (step : Build α) : Prop :=
  ∀ b x b', step b = .ok (x, b') →
    ∃ calls replies, runCalls calls b = .ok (replies, b') ∧ Call.reset ∉ calls

namespace OfCalls

variable {α β : Type} {step : Build α}

private theorem of_pure (x : α) : OfCalls (pure x) := by
  intro b y b' h
  cases h
  exact ⟨[], [], rfl, List.not_mem_nil⟩

/-- A step that is one call. -/
private theorem of_call (call : Call) (hcall : call ≠ .reset) (reply : α → Reply)
    (hrun : call.run = step >>= fun x => pure (reply x)) : OfCalls step := by
  intro b x b' h
  have hsingle : call.run b = .ok (reply x, b') := by
    rw [hrun]
    exact bind_eq_ok_iff.mpr ⟨_, h, rfl⟩
  refine ⟨[call], [reply x], bind_eq_ok_iff.mpr ⟨_, hsingle, rfl⟩, fun hmem => ?_⟩
  exact hcall (List.mem_singleton.mp hmem).symm

/-- Steps in sequence are the calls of the first and then those of the second. -/
private theorem bind {next : α → Build β} (h : OfCalls step) (hnext : ∀ x, OfCalls (next x)) :
    OfCalls (step >>= next) := by
  intro b y b' hrun
  obtain ⟨⟨x, e⟩, hstep, hrest⟩ := bind_eq_ok_iff.mp hrun
  obtain ⟨calls, replies, hcalls, hreset⟩ := h b x e hstep
  obtain ⟨more, rest, hmore, hreset'⟩ := hnext x e y b' hrest
  refine ⟨calls ++ more, replies ++ rest, runCalls_append hcalls hmore, fun hmem => ?_⟩
  exact (List.mem_append.mp hmem).elim hreset hreset'

theorem startObject (count : UInt16) : OfCalls (Build.startObject count) :=
  .of_call (.startObject count) nofun (fun _ => .done) rfl

theorem endObject : OfCalls Build.endObject := .of_call .endObject nofun .place rfl

/-- A slot of a record is one call, or none when it is not given. -/
private theorem push (slot : UInt16) (s : RecordSlot) : OfCalls (s.push slot) := by
  cases s with
  | scalar type value default =>
    exact .of_call (.pushSlot type slot value default) nofun (fun _ => .done) rfl
  | reference target => exact .of_call (.pushSlotOffset slot target) nofun (fun _ => .done) rfl
  | absent => exact .of_pure ()

/-- A text that may be missing is one call or none. -/
private theorem text (text : Option String) : OfCalls (text.mapM Build.createString) := by
  cases text with
  | none => exact .of_pure none
  | some text =>
    have hcreate : OfCalls (Build.createString text) :=
      .of_call (.createString text) nofun .place rfl
    have hstep := hcreate.bind fun offset => of_pure (some offset)
    rwa [← map_eq_pure_bind] at hstep

/-- A record is the start of an object, its slots and its end. -/
private theorem writeRecord (count : UInt16) (slots : List (UInt16 × RecordSlot)) :
    OfCalls (writeRecord count slots) := by
  have hslots : OfCalls (slots.forM fun s => s.2.push s.1) := by
    induction slots with
    | nil => exact .of_pure ()
    | cons head slots ih => exact (push head.1 head.2).bind fun _ => ih
  exact (startObject count).bind fun _ => hslots.bind fun _ => endObject

theorem destination (spec : DestinationSpec) : OfCalls spec.write := by
  rw [DestinationSpec.write, Destination.create_eq]
  exact (text _).bind fun _ => writeRecord _ _

end OfCalls

/-! ### Accounts of later builders -/

namespace Account

variable {a a' : Account} {b b' : Builder} {d : Draft}

/-- A call that is no reset forgets nothing. -/
private theorem extends_note (forceDefaults : Bool) {call : Call} (hcall : call ≠ .reset)
    (reply : Reply) :
    (a.note forceDefaults call reply).Extends a := by
  have hadd (item : Item) : (a.add item reply).Extends a := by
    cases reply with
    | place offset => exact extends_add a item offset
    | done | data bytes => exact .refl a
  cases call with
  | pushSlot type slot value default =>
    rw [note]
    split <;> exact List.Subset.refl _
  | endObject | createString text | createByteVector bytes => exact hadd _
  | reset => exact absurd rfl hcall
  | _ => exact List.Subset.refl _

/-- Calls other than a reset forget nothing. -/
private theorem extends_afterCalls (forceDefaults : Bool) {calls : List Call}
    (hreset : .reset ∉ calls) (replies : List Reply) :
    (a.afterCalls forceDefaults calls replies).Extends a := by
  induction calls generalizing a replies with
  | nil => exact .refl a
  | cons call calls ih =>
    obtain ⟨hcall, hcalls⟩ := not_or.mp (mt List.mem_cons.mpr hreset)
    cases replies with
    | nil => exact .refl a
    | cons reply replies =>
      exact (extends_note forceDefaults (Ne.symm hcall) reply).trans (ih hcalls replies)

/-- **What two accounts tell of holds together**, where no object is open. -/
theorem Describes.both (h : a.Describes d) (h' : a'.Describes d) (hidle : d.phase = .idle) :
    Describes { fields := [], items := a.items ++ a'.items } d where
  used_le := h.used_le
  minAlign_le := h.minAlign_le
  vtablesWritten := h.vtablesWritten
  items offset item hmem := by
    rcases List.mem_append.mp hmem with hleft | hright
    · exact h.items offset item hleft
    · exact h'.items offset item hright
  openObject start count hphase := by cases hidle.symm.trans hphase

/-- What is described stays described through calls, and none of it is forgotten without a
reset. -/
private theorem Describes.afterRun (h : a.Describes b.draft) {calls : List Call}
    {replies : List Reply} (hrun : runCalls calls b = .ok (replies, b')) (hreset : .reset ∉ calls) :
    ∃ a' : Account, a'.Describes b'.draft ∧ a'.Extends a ∧ b'.forceDefaults = b.forceDefaults := by
  have hdraft := Builder.draft_of_run h.vtablesWritten hrun
  exact ⟨_, h.run hdraft, extends_afterCalls _ hreset replies, Draft.forceDefaults_of_run hdraft⟩

/-- A call that goes through keeps the account true. -/
theorem Describes.call (h : a.Describes b.draft) {call : Call} {reply : Reply}
    (hcall : call.run b = .ok (reply, b')) :
    (a.note b.forceDefaults call reply).Describes b'.draft ∧
      b'.forceDefaults = b.forceDefaults := by
  have hperform := Builder.perform_of_run h.vtablesWritten hcall
  exact ⟨h.perform hperform, Draft.forceDefaults_of_perform hperform⟩

end Account

/-! ### Steps of the past -/

namespace Builder

variable {α β : Type} {b : Builder} {step : Build α} {x : α}

/-- Calls have led to the builder. -/
def Reached (b : Builder) : Prop :=
  ∃ options calls replies, runCalls calls (withOptions options) = .ok (replies, b)

/-- The step gave `x` at some time, and nothing was reset since then. -/
def Gave (b : Builder) (step : Build α) (x : α) : Prop :=
  ∃ b₀ b₁ calls replies, b₀.Reached ∧ step b₀ = .ok (x, b₁) ∧
    runCalls calls b₁ = .ok (replies, b) ∧ Call.reset ∉ calls

/-- A builder that was reached by calls is described by an account of them. -/
theorem Reached.exists_account (h : b.Reached) : ∃ a : Account, a.Describes b.draft := by
  obtain ⟨options, calls, replies, hrun⟩ := h
  have hdraft := draft_of_run (by rw [draft_withOptions]; exact Draft.vtablesWritten_empty _) hrun
  rw [draft_withOptions] at hdraft
  exact ⟨_, (Account.describes_empty _).run hdraft⟩

/-- One account tells of what was given out, if anything was. -/
theorem Reached.exists_account_of_some (h : b.Reached) {x? : Option α} {P : Account → α → Prop}
    (hx : ∀ x, x? = some x → ∃ a : Account, a.Describes b.draft ∧ P a x) :
    ∃ a : Account, a.Describes b.draft ∧ ∀ x, x? = some x → P a x := by
  cases x? with
  | none =>
    obtain ⟨a, ha⟩ := h.exists_account
    exact ⟨a, ha, nofun⟩
  | some x =>
    obtain ⟨a, ha, hP⟩ := hx x rfl
    exact ⟨a, ha, fun _ heq => Option.some.inj heq ▸ hP⟩

/-- A builder that a step leads to is reached. -/
theorem Reached.after (h : b.Reached) (hcalls : OfCalls step) {b' : Builder}
    (hstep : step b = .ok (x, b')) : b'.Reached := by
  obtain ⟨options, calls, replies, hrun⟩ := h
  obtain ⟨more, rest, hmore, -⟩ := hcalls b x b' hstep
  exact ⟨options, _, _, runCalls_append hrun hmore⟩

/-- What a step gives is given out. -/
theorem Reached.gave (h : b.Reached) {b' : Builder} (hstep : step b = .ok (x, b')) :
    b'.Gave step x :=
  ⟨b, b', [], [], h, hstep, rfl, List.not_mem_nil⟩

/-- What was given out stays so through further steps. -/
theorem Gave.after (h : b.Gave step x) {next : Build β} (hcalls : OfCalls next) {y : β}
    {b' : Builder} (hnext : next b = .ok (y, b')) : b'.Gave step x := by
  obtain ⟨b₀, b₁, calls, replies, hreached, hstep, hrun, hreset⟩ := h
  obtain ⟨more, rest, hmore, hreset'⟩ := hcalls b y b' hnext
  refine ⟨b₀, b₁, calls ++ more, replies ++ rest, hreached, hstep, runCalls_append hrun hmore,
    fun hmem => ?_⟩
  exact (List.mem_append.mp hmem).elim hreset hreset'

/-- What is made of the outcome of a step was given out too. -/
theorem Gave.map (h : b.Gave step x) (f : α → β) :
    b.Gave (step >>= fun x => pure (f x)) (f x) := by
  obtain ⟨b₀, b₁, calls, replies, hreached, hstep, hrun, hreset⟩ := h
  exact ⟨b₀, b₁, calls, replies, hreached, bind_eq_ok_iff.mpr ⟨_, hstep, rfl⟩, hrun, hreset⟩

/-- **What a step gave out still stands.** -/
theorem Gave.holds (h : b.Gave step x) (hidle : NeedsIdle step)
    {Q : Bool → Account → α → Prop} {cost : Nat}
    (hwrites : ∀ forceDefaults a, Writes forceDefaults a .idle step cost
      (fun x a' stage => stage = .idle ∧ a'.Extends a ∧ Q forceDefaults a' x))
    (hmono : ∀ forceDefaults (a a' : Account), a'.Extends a → Q forceDefaults a x →
      Q forceDefaults a' x) :
    ∃ a : Account, a.Describes b.draft ∧ Q b.forceDefaults a x := by
  obtain ⟨b₀, b₁, calls, replies, hreached, hstep, hrun, hreset⟩ := h
  obtain ⟨a₀, ha₀⟩ := hreached.exists_account
  have hready : b₀.draft.Ready b₀.forceDefaults a₀ .idle b₀.draft.used :=
    ⟨ha₀, rfl, hidle b₀ _ hstep, Nat.le_refl _⟩
  have hwritten := hwrites b₀.forceDefaults a₀ _ b₀ hready
  rw [hstep] at hwritten
  obtain ⟨a₁, stage, ⟨-, -, hholds⟩, hready₁⟩ := hwritten
  obtain ⟨a, ha, hext, hforce⟩ := hready₁.describes.afterRun hrun hreset
  rw [hforce.trans hready₁.forceDefaults]
  exact ⟨a, ha, hmono _ a₁ a hext hholds⟩

/-- An object that was closed still stands. -/
theorem Gave.exists_object {offset : Offset} (h : b.Gave Build.endObject offset) :
    ∃ a : Account, a.Describes b.draft ∧ ∃ fields, (offset, .object fields) ∈ a.items := by
  obtain ⟨b₀, b₁, calls, replies, hreached, hstep, hrun, hreset⟩ := h
  obtain ⟨a₀, ha₀⟩ := hreached.exists_account
  have hcall : Call.endObject.run b₀ = .ok (.place offset, b₁) :=
    bind_eq_ok_iff.mpr ⟨_, hstep, rfl⟩
  obtain ⟨a, ha, hext, -⟩ := (ha₀.call hcall).1.afterRun hrun hreset
  exact ⟨a, ha, _, hext List.mem_cons_self⟩

end Builder

/-! ### Records that were written -/

namespace Account.Describes

variable {a : Account} {b b' : Builder}

/-- A slot that is pushed is noted as its field, or as none when it is elided. -/
private theorem pushSlot (h : a.Describes b.draft) {slot : UInt16} {s : RecordSlot} {u : Unit}
    (hpush : s.push slot b = .ok (u, b')) :
    (a.pushAll (recordFields b.forceDefaults [(slot, s)])).Describes b'.draft ∧
      b'.forceDefaults = b.forceDefaults := by
  cases s with
  | scalar type value default =>
    have hcall : (Call.pushSlot type slot value default).run b = .ok (.done, b') :=
      bind_eq_ok_iff.mpr ⟨_, hpush, rfl⟩
    have hdescribes := h.call hcall
    rwa [a.note_pushSlot] at hdescribes
  | reference target =>
    have hcall : (Call.pushSlotOffset slot target).run b = .ok (.done, b') :=
      bind_eq_ok_iff.mpr ⟨_, hpush, rfl⟩
    exact h.call hcall
  | absent =>
    cases hpush
    exact ⟨h, rfl⟩

/-- Slots that are pushed one by one are noted as their fields, by induction on the slots. -/
private theorem pushSlots (h : a.Describes b.draft) {slots : List (UInt16 × RecordSlot)} {u : Unit}
    (hpush : (slots.forM fun s => s.2.push s.1) b = .ok (u, b')) :
    (a.pushAll (recordFields b.forceDefaults slots)).Describes b'.draft ∧
      b'.forceDefaults = b.forceDefaults := by
  induction slots generalizing a b with
  | nil =>
    cases hpush
    exact ⟨h, rfl⟩
  | cons head slots ih =>
    obtain ⟨⟨_, e⟩, hhead, hrest⟩ := bind_eq_ok_iff.mp hpush
    obtain ⟨hdescribes, hforce⟩ := h.pushSlot hhead
    obtain ⟨hdescribes', hforce'⟩ := ih hdescribes hrest
    rw [Account.pushAll_pushAll, hforce] at hdescribes'
    exact ⟨hdescribes', hforce'.trans hforce⟩

/-- **A record that was written** has the fields that its slots leave, whatever they refer to. -/
theorem writeRecord (h : a.Describes b.draft) {count : UInt16} {slots : List (UInt16 × RecordSlot)}
    {offset : Offset} (hwrite : EnvelopeWire.writeRecord count slots b = .ok (offset, b')) :
    ∃ a' : Account, a'.Describes b'.draft ∧ a'.Extends a ∧
      (offset, .object (recordFields b.forceDefaults slots)) ∈ a'.items := by
  obtain ⟨⟨_, b₁⟩, hstart, hrest⟩ := bind_eq_ok_iff.mp hwrite
  obtain ⟨⟨_, b₂⟩, hpush, hend⟩ := bind_eq_ok_iff.mp hrest
  have hopened : (Call.startObject count).run b = .ok (.done, b₁) :=
    bind_eq_ok_iff.mpr ⟨_, hstart, rfl⟩
  have hclosed : Call.endObject.run b₂ = .ok (.place offset, b') :=
    bind_eq_ok_iff.mpr ⟨_, hend, rfl⟩
  obtain ⟨h₁, hforce₁⟩ := h.call hopened
  obtain ⟨h₂, -⟩ := h₁.pushSlots hpush
  obtain ⟨h₃, -⟩ := h₂.call hclosed
  rw [hforce₁] at h₃
  refine ⟨_, h₃, List.subset_cons_self _ _, ?_⟩
  change _ ∈ (offset, Item.object (recordFields b.forceDefaults slots ++ [])) :: a.items
  rw [List.append_nil]
  exact List.mem_cons_self

end Account.Describes

end EnvelopeWire
