import EnvelopeWire.Proofs.Reading.Query

/-!
# Reading a buffer whose end is cut off

A reader of a prefix of a buffer either runs out of bytes and says so, or gets exactly what it
would get from the whole buffer: the same value or the same error. The length of a buffer is only
ever compared with the end of a range, so a check that a prefix passes is passed by the whole
buffer too, with the same bytes behind it.

* `Survives`: how the results of a read of the prefix and of the whole buffer go together.
* `Survives.bind`: reads in sequence go together when each of them does.
* `survives_runObject`, `survives_envelopeQuestion`: chains of reads from the start of a buffer.
-/

namespace EnvelopeWire

/-- Whether bytes are asked for that the buffer does not have. -/
def WireError.isShortage : WireError → Bool
  | tooShort _ | outOfBounds _ _ _ => true
  | badVTable _ _ | invalidUtf8 _ => false

/-- Whether bytes are asked for that the buffer does not have. -/
def EnvelopeError.isShortage : EnvelopeError → Bool
  | wire e => e.isShortage
  | _ => false

/-! ### Results that go together -/

/-- Values that may be missing are equal when they are related by equality. -/
private theorem eq_of_rel {α : Type} {a b : Option α} (h : Option.Rel Eq a b) : a = b := by
  cases h with
  | none => rfl
  | some heq => exact congrArg some heq

/-- `x` falls short of bytes, or `x` and `y` fail with the same error, or both give results, which
`R` relates. -/
inductive Survives {ε α β : Type} (short : ε → Bool) (R : α → β → Prop) :
    Except ε α → Except ε β → Prop
  | short {e : ε} {y : Except ε β} (h : short e = true) : Survives short R (.error e) y
  | error (e : ε) : Survives short R (.error e) (.error e)
  | ok {a : α} {b : β} (h : R a b) : Survives short R (.ok a) (.ok b)

namespace Survives

variable {ε α β γ δ : Type} {short : ε → Bool} {R : α → β → Prop} {S : γ → δ → Prop}

/-- What `Survives` says of two results of the same type that are to be equal. -/
private theorem eq_or_short {x y : Except ε α} (h : Survives short Eq x y) :
    (∃ e, x = .error e ∧ short e = true) ∨ x = y := by
  cases h with
  | short he => exact .inl ⟨_, rfl, he⟩
  | error e => exact .inr rfl
  | ok hab => exact .inr (congrArg _ hab)

private theorem mono {R' : α → β → Prop} {x : Except ε α} {y : Except ε β}
    (hx : Survives short R x y) (hR : ∀ a b, R a b → R' a b) : Survives short R' x y := by
  cases hx with
  | short he => exact .short he
  | error e => exact .error e
  | ok hab => exact .ok (hR _ _ hab)

/-- What is made of a read survives with it. -/
private theorem map {x : Except ε α} {y : Except ε β} {f : α → γ} {g : β → δ}
    (hx : Survives short R x y) (hf : ∀ a b, R a b → S (f a) (g b)) :
    Survives short S (x.map f) (y.map g) := by
  cases hx with
  | short he => exact .short he
  | error e => exact .error e
  | ok hab => exact .ok (hf _ _ hab)

/-- Reads in sequence go together when each of them does, the second after any results that the
first may give. -/
theorem bind {x : Except ε α} {y : Except ε β} {f : α → Except ε γ} {g : β → Except ε δ}
    (hx : Survives short R x y)
    (hf : ∀ a b, x = .ok a → y = .ok b → R a b → Survives short S (f a) (g b)) :
    Survives short S (x >>= f) (y >>= g) := by
  cases hx with
  | short he => exact .short he
  | error e => exact .error e
  | ok hab => exact hf _ _ rfl rfl hab

/-- A step that does not look at the buffer. -/
private theorem same (x : Except ε α) : Survives short Eq x x := by
  cases x with
  | error e => exact .error e
  | ok a => exact .ok rfl

/-- A condition that holds of the whole buffer when it holds of the prefix, which falls short
otherwise. -/
private theorem ensure_of_imp {p q : Prop} [Decidable p] [Decidable q] {e e' : ε}
    (he : short e = true) (hpq : p → q) : Survives short Eq (ensure p e) (ensure q e') := by
  by_cases hp : p
  · rw [(ensure_eq_ok_iff (u := ())).mpr hp, (ensure_eq_ok_iff (u := ())).mpr (hpq hp)]
    exact .ok rfl
  · rw [ensure_eq_error_iff.mpr ⟨hp, rfl⟩]
    exact .short he

/-- The options that two reads give go together when the values in them do. -/
private theorem map_ofOption {x : Except ε (Option α)} {y : Except ε (Option β)} {f : α → Answer}
    {g : β → Answer} (hx : Survives short (Option.Rel R) x y) (hf : ∀ a b, R a b → f a = g b) :
    Survives short Eq (x.map (Answer.ofOption f)) (y.map (Answer.ofOption g)) := by
  refine hx.map fun a b hab => ?_
  cases hab with
  | none => rfl
  | some h => exact hf _ _ h

/-- A read that is part of an envelope survives as one of its own. -/
private theorem checked {x : Except WireError α} {y : Except WireError β}
    (hx : Survives WireError.isShortage R x y) :
    Survives EnvelopeError.isShortage R (Envelope.checked x) (Envelope.checked y) := by
  cases hx with
  | short he => exact .short he
  | error e => exact .error _
  | ok hab => exact .ok hab

end Survives

/-! ### Bytes -/

section Bytes

variable {b b' : Bytes} (h : b' <+: b)

include h

/-- A range is cut off, or read as it is in the whole buffer. -/
private theorem survives_read (position size : Nat) :
    Survives WireError.isShortage Eq (b'.read position size) (b.read position size) := by
  cases hread : b'.read position size with
  | error e =>
    obtain ⟨-, rfl⟩ := Bytes.read_eq_error_iff.mp hread
    exact .short rfl
  | ok s =>
    obtain ⟨rest, rfl⟩ := h
    have hslice : b'.slice? position size = some s :=
      Bytes.slice?_eq_some_iff.mpr (Bytes.read_eq_ok_iff.mp hread)
    rw [Bytes.read_eq_ok_iff.mpr
      (Bytes.slice?_eq_some_iff.mp (Bytes.slice?_append_left rest hslice))]
    exact .ok rfl

private theorem survives_readScalar (type : ScalarType) (position : Nat) :
    Survives WireError.isShortage Eq (readScalar type b' position) (readScalar type b position) :=
  (survives_read h position type.width).map fun _ _ heq => congrArg _ heq

private theorem survives_readVector (position : Nat) :
    Survives WireError.isShortage Eq (readVector b' position) (readVector b position) := by
  refine (survives_readScalar h .u32 position).bind ?_
  rintro count _ - - rfl
  exact survives_read h _ _

private theorem survives_readString (position : Nat) :
    Survives WireError.isShortage Eq (readString b' position) (readString b position) := by
  refine (survives_readVector h position).bind ?_
  rintro bytes _ - - rfl
  cases utf8? bytes with
  | some text => exact .ok rfl
  | none => exact .error _

end Bytes

/-! ### Tables -/

/-- `t'` is the same object as `t`, in a buffer whose end is cut off. -/
structure Table.Cuts (t' t : Table) : Prop where
  buffer : t'.buffer <+: t.buffer
  position : t'.position = t.position

section Tables

variable {t t' : Table}

/-- The vtable of an object survives, one check after the other. -/
private theorem survives_vtable (h : t'.Cuts t) :
    Survives WireError.isShortage Eq t'.vtable t.vtable := by
  obtain ⟨b', position⟩ := t'
  obtain ⟨b, _⟩ := t
  obtain ⟨hb, rfl⟩ := h
  refine (survives_readScalar hb .i32 position).bind ?_
  rintro reference _ - - rfl
  refine (Survives.ensure_of_imp rfl id).bind fun _ _ _ _ _ => ?_
  refine (survives_readScalar hb .u16 _).bind ?_
  rintro length _ - - rfl
  -- Whether the length is a good one does not depend on the buffer, so both sides agree on it.
  refine (Survives.same _).bind fun _ _ _ _ _ => ?_
  refine (survives_read hb _ _).bind ?_
  rintro bytes _ - - rfl
  refine (survives_readScalar hb .u16 _).bind ?_
  rintro objectLength _ - - rfl
  refine (Survives.same _).bind fun _ _ _ _ _ => ?_
  exact (survives_read hb _ _).bind fun _ _ _ _ _ => .ok rfl

private theorem survives_ofPosition {b b' : Bytes} (h : b' <+: b) (position : Nat) :
    Survives WireError.isShortage Table.Cuts (Table.ofPosition b' position)
      (Table.ofPosition b position) := by
  have hcuts : Table.Cuts ⟨b', position⟩ ⟨b, position⟩ := ⟨h, rfl⟩
  exact (survives_vtable hcuts).map fun _ _ _ => hcuts

private theorem survives_rootTable {b b' : Bytes} (h : b' <+: b) :
    Survives WireError.isShortage Table.Cuts (rootTable b') (rootTable b) := by
  have hlength : 4 ≤ b'.length → 4 ≤ b.length := fun hle => Nat.le_trans hle h.length_le
  refine (Survives.ensure_of_imp rfl hlength).bind fun _ _ _ _ _ => ?_
  refine (survives_readScalar h .u32 0).bind ?_
  rintro root _ - - rfl
  exact survives_ofPosition h _

/-- A field is found at the same place, as its vtable is the same. -/
private theorem survives_locateField (h : t'.Cuts t) (slot : UInt16) (size : Nat) :
    Survives WireError.isShortage Eq (t'.locateField slot size) (t.locateField slot size) := by
  refine (survives_vtable h).bind ?_
  rintro v _ - - rfl
  by_cases hfield : (v.fieldOffset slot).toNat = 0
  · simp only [hfield, if_true]
    exact .ok rfl
  · simp only [hfield, if_false, h.position]
    exact (Survives.same _).bind fun _ _ _ _ _ => .ok rfl

private theorem survives_get (h : t'.Cuts t) (type : ScalarType) (slot : UInt16)
    (default : type.Value) :
    Survives WireError.isShortage Eq (t'.get type slot default) (t.get type slot default) := by
  refine (survives_locateField h slot type.width).bind ?_
  rintro position _ - - rfl
  cases position with
  | some position => exact survives_readScalar h.buffer type position
  | none => exact .ok rfl

/-- A target that is still in the cut buffer is in the whole one. -/
private theorem survives_follow (h : t'.Cuts t) (slot : UInt16) :
    Survives WireError.isShortage Eq (t'.follow slot) (t.follow slot) := by
  refine (survives_locateField h slot 4).bind ?_
  rintro position _ - - rfl
  cases position with
  | none => exact .ok rfl
  | some position =>
    refine (survives_readScalar h.buffer .u32 position).bind ?_
    rintro distance _ - - rfl
    have hin (target : Nat) : target < t'.buffer.length → target < t.buffer.length :=
      fun hlt => Nat.lt_of_lt_of_le hlt h.buffer.length_le
    exact (Survives.ensure_of_imp rfl (hin _)).bind fun _ _ _ _ _ => .ok rfl

/-- What is read behind a reference survives when it does at every target. -/
private theorem survives_getWith {α β : Type} {R : α → β → Prop} (h : t'.Cuts t) (slot : UInt16)
    {read' : Nat → Except WireError α} {read : Nat → Except WireError β}
    (hread : ∀ target, Survives WireError.isShortage R (read' target) (read target)) :
    Survives WireError.isShortage (Option.Rel R) (t'.getWith slot read') (t.getWith slot read) := by
  refine (survives_follow h slot).bind ?_
  rintro target _ - - rfl
  cases target with
  | none => exact .ok .none
  | some target => exact (hread target).bind fun _ _ _ _ hr => .ok (.some hr)

private theorem survives_getTable (h : t'.Cuts t) (slot : UInt16) :
    Survives WireError.isShortage (Option.Rel Table.Cuts) (t'.getTable slot) (t.getTable slot) :=
  survives_getWith h slot (survives_ofPosition h.buffer)

private theorem survives_getString (h : t'.Cuts t) (slot : UInt16) :
    Survives WireError.isShortage Eq (t'.getString slot) (t.getString slot) :=
  (survives_getWith h slot (survives_readString h.buffer)).mono fun _ _ => eq_of_rel

private theorem survives_getBytes (h : t'.Cuts t) (slot : UInt16) :
    Survives WireError.isShortage Eq (t'.getBytes slot) (t.getBytes slot) :=
  (survives_getWith h slot (survives_readVector h.buffer)).mono fun _ _ => eq_of_rel

/-- A walk through slots survives, by induction on the slots. -/
private theorem survives_walk (h : t'.Cuts t) (path : List UInt16) :
    Survives WireError.isShortage (Option.Rel Table.Cuts) (t'.walk path) (t.walk path) := by
  induction path generalizing t' t with
  | nil => exact .ok (.some h)
  | cons slot path ih =>
    refine (survives_getTable h slot).bind fun next' next _ _ hnext => ?_
    cases hnext with
    | none => exact .ok .none
    | some hnext => exact ih hnext

end Tables

/-! ### Records -/

section Records

variable {t t' : Table}

/-- What falls back to a default does not, where the reads behind it give a result. -/
private theorem toOption_congr {α : Type} {x y : Except WireError α} {a b : α} (hx : x = .ok a)
    (hy : y = .ok b) (heq : a = b) : x.toOption = y.toOption := by
  rw [hx, hy, heq]

/-- A destination that is checked says the same when it is read from the whole buffer. -/
private theorem survives_destination (h : t'.Cuts t) :
    Survives WireError.isShortage (fun d' d => Answer.ofDestination d' = Answer.ofDestination d)
      (Record.ofTable t') (Record.ofTable t) := by
  refine (survives_get h .u8 0 0).bind fun kind' kind hkind' hkind heqKind => ?_
  refine (survives_getString h 1).bind fun target' target htarget' htarget heqTarget => ?_
  have hkinds : Destination.kindByte ⟨t'⟩ = Destination.kindByte ⟨t⟩ :=
    congrArg (Option.getD · 0) (toOption_congr hkind' hkind heqKind)
  have htargets : Destination.target ⟨t'⟩ = Destination.target ⟨t⟩ :=
    congrArg Option.join (toOption_congr htarget' htarget heqTarget)
  refine .ok ?_
  rw [Answer.ofDestination, Answer.ofDestination, DestinationReport.ofDestination,
    DestinationReport.ofDestination, Destination.kind, Destination.kind, hkinds, htargets,
    h.position]

/-- An error that is checked says the same when it is read from the whole buffer. -/
private theorem survives_errorContent (h : t'.Cuts t) :
    Survives WireError.isShortage (fun e' e => Answer.ofErrorContent e' = Answer.ofErrorContent e)
      (Record.ofTable t') (Record.ofTable t) := by
  refine (survives_get h .u16 0 0).bind fun code' code hcode' hcode heqCode => ?_
  refine (survives_getString h 1).bind fun category' category hcategory' hcategory heqCategory => ?_
  refine (survives_getString h 2).bind fun reason' reason hreason' hreason heqReason => ?_
  have hcodes : ErrorContent.code ⟨t'⟩ = ErrorContent.code ⟨t⟩ :=
    congrArg (Option.getD · 0) (toOption_congr hcode' hcode heqCode)
  have hcategories : ErrorContent.category ⟨t'⟩ = ErrorContent.category ⟨t⟩ :=
    congrArg Option.join (toOption_congr hcategory' hcategory heqCategory)
  have hreasons : ErrorContent.reason ⟨t'⟩ = ErrorContent.reason ⟨t⟩ :=
    congrArg Option.join (toOption_congr hreason' hreason heqReason)
  refine .ok ?_
  rw [Answer.ofErrorContent, Answer.ofErrorContent, hcodes, hcategories, hreasons, h.position]

/-- A record survives when its own checks do. -/
private theorem survives_getRecord {ρ : Type} [Record ρ] {R : ρ → ρ → Prop} (h : t'.Cuts t)
    (slot : UInt16) (hR : ∀ {s' s : Table}, s'.Cuts s →
      Survives WireError.isShortage R (Record.ofTable s') (Record.ofTable s)) :
    Survives WireError.isShortage (Option.Rel R) (t'.getRecord ρ slot) (t.getRecord ρ slot) := by
  refine (survives_getTable h slot).bind fun next' next _ _ hnext => ?_
  cases hnext with
  | none => exact .ok .none
  | some hnext => exact (hR hnext).bind fun _ _ _ _ hr => .ok (.some hr)

/-- `e'` is the same envelope as `e`, in a buffer whose end is cut off, and says the same. -/
structure Envelope.Cuts (e' e : Envelope) : Prop where
  table : e'.table.Cuts e.table
  answer : Answer.ofEnvelope e' = Answer.ofEnvelope e

/-- An envelope that is checked says the same when it is read from the whole buffer. -/
private theorem survives_envelope (h : t'.Cuts t) :
    Survives WireError.isShortage Envelope.Cuts (Record.ofTable t') (Record.ofTable t) := by
  refine (survives_getRecord h 0 survives_destination).bind
    fun destination' destination hdestination' hdestination hrel => ?_
  refine (survives_get h .u8 1 0).bind fun tag' tag htag' htag heqTag => ?_
  refine (survives_getTable h 2).bind fun _ _ _ _ _ => ?_
  refine (survives_get h .i32 3 0).bind fun id' id hid' hid heqId => ?_
  have hdestinations : (Envelope.destination ⟨t'⟩).map Answer.ofDestination
      = (Envelope.destination ⟨t⟩).map Answer.ofDestination := by
    rw [Envelope.destination, Envelope.destination, hdestination', hdestination]
    cases hrel with
    | none => rfl
    | some heq => exact congrArg some heq
  have htags : Envelope.contentType ⟨t'⟩ = Envelope.contentType ⟨t⟩ :=
    congrArg (Option.getD · 0) (toOption_congr htag' htag heqTag)
  have hids : Envelope.id ⟨t'⟩ = Envelope.id ⟨t⟩ :=
    congrArg (Option.getD · 0) (toOption_congr hid' hid heqId)
  refine .ok ⟨h, ?_⟩
  rw [Answer.ofEnvelope, Answer.ofEnvelope, hdestinations, htags, hids, h.position]

/-- The content of an envelope survives, its table as the same one in the whole buffer. -/
private theorem survives_content {e' e : Envelope} (h : e'.Cuts e) :
    Survives EnvelopeError.isShortage (fun c' c => Answer.ofContent c' = Answer.ofContent c)
      e'.content e.content := by
  -- The tag was read when the envelope was checked, so it is not a matter of length any more.
  have htag : e'.contentType = e.contentType := (Answer.envelope.inj h.answer).2.2.1
  refine (survives_getRecord h.table 2 (R := Table.Cuts) fun hs => .ok hs).checked.bind
    fun target' target _ _ hrel => ?_
  rw [htag]
  cases hrel with
  | none =>
    by_cases hzero : e.contentType = 0
    · simp only [hzero, if_true]
      exact .ok rfl
    · simp only [hzero, if_false]
      exact .error _
  | some hs =>
    cases ContentType.ofByte e.contentType with
    | error _ =>
      refine .ok ?_
      simp only [Answer.ofContent, ContentReport.ofContent, Answer.contentPosition, hs.position]
    | ok type =>
      cases type with
      | none => exact .error _
      | noMessage => exact .ok rfl
      | success => exact .ok rfl
      | error =>
        refine (survives_errorContent hs).checked.bind fun c' c _ _ hc => .ok ?_
        obtain ⟨hposition, hcode, hcategory, hreason⟩ := Answer.errorContent.inj hc
        simp only [Answer.ofContent, ContentReport.ofContent, Answer.contentPosition, hposition,
          hcode, hcategory, hreason]

end Records

/-! ### Queries -/

private theorem survives_ask {read' read : (ρ : Type) → [Record ρ] → Except WireError (Option ρ)}
    (hread : ∀ {ρ : Type} [Record ρ] {R : ρ → ρ → Prop},
      (∀ {s' s : Table}, s'.Cuts s →
        Survives WireError.isShortage R (Record.ofTable s') (Record.ofTable s)) →
      Survives WireError.isShortage (Option.Rel R) (read' ρ) (read ρ)) (type : RecordType) :
    Survives WireError.isShortage Eq (type.ask read') (type.ask read) := by
  cases type with
  | table =>
    exact (hread (R := Table.Cuts) fun hs => .ok hs).map_ofOption fun _ _ hs =>
      congrArg Answer.table hs.position
  | destination => exact (hread survives_destination).map_ofOption fun _ _ heq => heq
  | errorContent => exact (hread survives_errorContent).map_ofOption fun _ _ heq => heq
  | envelope => exact (hread survives_envelope).map_ofOption fun _ _ he => he.answer

private theorem survives_question {t' t : Table} (h : t'.Cuts t) (question : Question) :
    Survives WireError.isShortage Eq (question.ask t') (question.ask t) := by
  cases question with
  | position => exact .ok (congrArg Answer.table h.position)
  | vtable => exact (survives_vtable h).map fun _ _ heq => congrArg _ heq
  | scalar type slot default =>
    exact (survives_get h type slot default).map fun _ _ heq => congrArg _ heq
  | string slot => exact (survives_getString h slot).map fun _ _ heq => congrArg _ heq
  | bytes slot => exact (survives_getBytes h slot).map fun _ _ heq => congrArg _ heq
  | record type slot => exact survives_ask (fun hR => survives_getRecord h slot hR) type

theorem survives_runObject {b' b : Bytes} (h : b' <+: b) (origin : Origin) (path : List UInt16)
    (question : Question) :
    Survives WireError.isShortage Eq (Query.runObject b' origin path question)
      (Query.runObject b origin path question) := by
  have hstart : Survives WireError.isShortage Table.Cuts (origin.table b') (origin.table b) := by
    cases origin with
    | root => exact survives_rootTable h
    | object position => exact survives_ofPosition h position
  refine hstart.bind fun start' start _ _ hcuts => ?_
  refine (survives_walk hcuts path).bind fun stop' stop _ _ hrel => ?_
  cases hrel with
  | none => exact .ok rfl
  | some hcuts => exact survives_question hcuts question

theorem survives_envelopeQuestion {e' e : Envelope} (h : e'.Cuts e) (question : EnvelopeQuestion) :
    Survives EnvelopeError.isShortage Eq (question.ask e') (question.ask e) := by
  cases question with
  | fields => exact .ok h.answer
  | content => exact (survives_content h).map fun _ _ heq => heq
  | contentAs type =>
    exact (survives_ask (fun hR => survives_getRecord h.table 2 hR) type).checked

/-- **A query of a prefix of a buffer falls short of bytes, or gives what it gives on the whole
buffer**: the same value, or the same error. -/
theorem Query.survives_append (front rest : Bytes) (query : Query) :
    (∃ e, query.run front = .error e ∧ e.isShortage = true) ∨
      query.run front = query.run (front ++ rest) := by
  have h : front <+: front ++ rest := List.prefix_append front rest
  refine Survives.eq_or_short ?_
  cases query with
  | scalar type position =>
    exact ((survives_readScalar h type position).map fun _ _ heq => congrArg _ heq).checked
  | object origin path question => exact (survives_runObject h origin path question).checked
  | envelope question =>
    have hwrap : Survives WireError.isShortage Envelope.Cuts (Envelope.ofBuffer front)
        (Envelope.ofBuffer (front ++ rest)) :=
      (survives_rootTable h).bind fun _ _ _ _ hcuts => survives_envelope hcuts
    exact hwrap.checked.bind fun _ _ _ _ he => survives_envelopeQuestion he question

end EnvelopeWire
