import EnvelopeWire.Proofs.Builder.Verdict

/-!
# Misuse and the data

Two programs are alike when they make the same calls in the same order, with the same slots, types
and references, and differ at most in the values and defaults that they push. What is a misuse does
not depend on these, with one exception. A push whose value agrees with its default is no write
unless defaults are forced: it leaves its slot free for another push, and what is refused is a
second write.

* `Outline.Alike.misuse_cases`: where alike programs are judged differently.
* `counterpart_of_failureFrom`: what becomes of a misuse in a program that is alike.
* `Builder.misuse_alike`: the same of programs from their start, and which pushes are refused as
  second writes.
-/

namespace EnvelopeWire

/-! ### Programs that are alike -/

/-- Pushes of the same type, or of the same reference. -/
inductive Push.Alike : Push → Push → Prop
  | scalar (type : ScalarType) (value default value' default' : type.Value) :
    Alike (.scalar type value default) (.scalar type value' default')
  | reference (number : Nat) : Alike (.reference number) (.reference number)

/-- Instructions that differ at most in the values and defaults that they push. -/
inductive Instruction.Alike : Instruction → Instruction → Prop
  | refl (instruction : Instruction) : Alike instruction instruction
  | push (slot : UInt16) {what what' : Push} (h : what.Alike what') :
    Alike (.push slot what) (.push slot what')

private theorem Push.Alike.refl (what : Push) : what.Alike what := by
  cases what with
  | scalar => exact .scalar _ _ _ _ _
  | reference => exact .reference _

private theorem Push.Alike.operation_eq {what what' : Push} (h : what.Alike what') :
    what.operation = what'.operation := by
  cases h <;> rfl

/-- Alike pushes are judged alike, apart from the slot they go to. -/
private theorem Push.Alike.misuse?_eq {what what' : Push} (h : what.Alike what') (count : Nat) :
    what.misuse? count = what'.misuse? count := by
  cases h <;> rfl

namespace Outline

/-- What alike programs have done: they are as far, have pushed into the same slots and have created
as many things. -/
structure Alike (o o' : Outline) : Prop where
  progress : o.progress = o'.progress
  slots : o.pushes.map Prod.fst = o'.pushes.map Prod.fst
  count : o.things.length = o'.things.length

/-- There were pushes to `slot` in the open object, none of which was written. -/
structure Hides (forceDefaults : Bool) (o : Outline) (slot : UInt16) : Prop where
  isOpen : ∃ count, o.progress = .building count
  pushed : slot ∈ o.pushes.map Prod.fst
  not_writes : ¬ o.Writes forceDefaults slot

variable {o o' : Outline} {i i' : Instruction}

private theorem Alike.refl (o : Outline) : o.Alike o := ⟨rfl, rfl, rfl⟩

private theorem Alike.symm (h : o.Alike o') : o'.Alike o :=
  ⟨h.progress.symm, h.slots.symm, h.count.symm⟩

/-- Alike instructions keep outlines alike. -/
private theorem Alike.after (h : o.Alike o') (hi : i.Alike i') :
    (o.after i).Alike (o'.after i') := by
  obtain ⟨hprogress, hslots, hcount⟩ := h
  cases hi with
  | push slot hwhat => exact ⟨hprogress, by simp [Outline.after, hslots], hcount⟩
  | refl =>
    cases i <;> constructor <;> simp [Outline.after, hprogress, hslots, hcount]

/-- A slot that was pushed to is written or hides its pushes. -/
private theorem Alike.hides (h : o.Alike o') {count : UInt16} (hopen : o.progress = .building count)
    {forceDefaults forceDefaults' : Bool} {slot : UInt16} (hwrites : o.Writes forceDefaults slot)
    (hnot : ¬ o'.Writes forceDefaults' slot) : o'.Hides forceDefaults' slot := by
  obtain ⟨q, hq, hslot, -⟩ := hwrites
  refine ⟨⟨count, h.progress ▸ hopen⟩, ?_, hnot⟩
  rw [← h.slots]
  exact List.mem_map.mpr ⟨q, hq, hslot⟩

/-- Alike pushes to one slot are judged alike, unless an earlier push to it counts in one of the
outlines and is hidden in the other. -/
private theorem Alike.misuse_cases_push (h : o.Alike o') {what what' : Push}
    (hwhat : what.Alike what') (slot : UInt16) (f f' : Bool) :
    o.misuse? f (.push slot what) = o'.misuse? f' (.push slot what') ∨ ∃ op slot',
      (o.misuse? f (.push slot what) = some (.slotWrittenTwice op slot'.toNat) ∧
        o'.Hides f' slot') ∨
      (o'.misuse? f' (.push slot what') = some (.slotWrittenTwice op slot'.toNat) ∧
        o.Hides f slot') := by
  have hoperation := hwhat.operation_eq
  cases hprogress : o.progress with
  | idle =>
    left
    rw [misuse?, misuse?, ← h.progress, hprogress, ← hoperation]
    rfl
  | finished root =>
    left
    rw [misuse?, misuse?, ← h.progress, hprogress, ← hoperation]
    rfl
  | building count =>
    have hprogress' : o'.progress = .building count := h.progress ▸ hprogress
    rw [misuse?_push_of_building hprogress, misuse?_push_of_building hprogress', ← hoperation,
      ← h.count, ← hwhat.misuse?_eq]
    by_cases hslot : slot < count
    · rw [if_pos hslot, if_pos hslot]
      by_cases hwrites : o.Writes f slot
      · by_cases hwrites' : o'.Writes f' slot
        · left
          rw [if_pos hwrites, if_pos hwrites']
        · right
          have hhides := h.hides hprogress hwrites hwrites'
          exact ⟨what.operation, slot, .inl ⟨if_pos hwrites, hhides⟩⟩
      · by_cases hwrites' : o'.Writes f' slot
        · right
          have hhides := h.symm.hides hprogress' hwrites' hwrites
          exact ⟨what.operation, slot, .inr ⟨if_pos hwrites', hhides⟩⟩
        · left
          rw [if_neg hwrites, if_neg hwrites']
    · left
      rw [if_neg hslot, if_neg hslot]

/-- **Alike instructions after alike programs are judged the same**, unless one of them is a second
write to a slot whose pushes the other program hides. -/
theorem Alike.misuse_cases (h : o.Alike o') (hi : i.Alike i') (f f' : Bool) :
    o.misuse? f i = o'.misuse? f' i' ∨
      ∃ op slot, (o.misuse? f i = some (.slotWrittenTwice op slot.toNat) ∧ o'.Hides f' slot) ∨
        (o'.misuse? f' i' = some (.slotWrittenTwice op slot.toNat) ∧ o.Hides f slot) := by
  cases hi with
  | push slot hwhat => exact h.misuse_cases_push hwhat slot f f'
  | refl =>
    cases i with
    | push slot what => exact h.misuse_cases_push (.refl what) slot f f'
    | _ =>
      left
      simp only [misuse?, h.progress, h.count]

end Outline

/-! ### Where a run fails -/

/-- The first instruction that fails, by the number of those before it, with its failure, where the
things have the offsets `known`. -/
def failureFrom : List Instruction → List Offset → Builder → Option (Nat × Failure)
  | [], _, _ => none
  | instruction :: program, known, b =>
    match (instruction.call known).run b with
    | .error e => some (0, e)
    | .ok (reply, b') =>
      (failureFrom program (instruction.known known reply) b').map fun f => (f.1 + 1, f.2)

/-- The first instruction of a program that fails, with its failure. -/
def failureOf (options : BuilderOptions) (program : List Instruction) : Option (Nat × Failure) :=
  failureFrom program [] (Builder.withOptions options)

/-- What becomes, in another program, of the misuse `cause` for which instruction number `n` of a
program is refused. What the two have done before is `o` and `o'`, and `outcome'` is where the other
one fails. -/
inductive Counterpart (f f' : Bool) (o o' : Outline) (p p' : List Instruction)
    (outcome' : Option (Nat × Failure)) (n : Nat) (cause : Misuse) : Prop
  /-- The same instruction is refused for the same misuse. -/
  | same (h : outcome' = some (n, .misuse cause))
  /-- A limit on sizes stops the other program there or before. -/
  | limit {m : Nat} {e : Failure} (hle : m ≤ n) (h : outcome' = some (m, e)) (he : e.IsSizeLimit)
  /-- The misuse is a second write to a slot whose pushes the other program hides. -/
  | hidden {op : Operation} {slot : UInt16} (h : cause = .slotWrittenTwice op slot.toNat)
    (hreached : ∀ m e, outcome' = some (m, e) → n ≤ m)
    (hhides : ((p'.take n).foldl Outline.after o').Hides f' slot)
  /-- There or before, the other program has a second write to a slot whose pushes the program
  hides. -/
  | shown {m : Nat} {op : Operation} {slot : UInt16} (hle : m ≤ n)
    (h : outcome' = some (m, .misuse (.slotWrittenTwice op slot.toNat)))
    (hhides : ((p.take m).foldl Outline.after o).Hides f slot)

section Runs

variable {f f' : Bool} {o o' : Outline} {known known' : List Offset} {b b' : Builder}
  {i i' : Instruction} {p p' : List Instruction} {n : Nat} {cause : Misuse}

/-- One more instruction in front of both programs, which go through. -/
private theorem Counterpart.cons {outcome' : Option (Nat × Failure)}
    (h : Counterpart f f' (o.after i) (o'.after i') p p' outcome' n cause) :
    Counterpart f f' o o' (i :: p) (i' :: p') (outcome'.map fun x => (x.1 + 1, x.2)) (n + 1)
      cause := by
  cases h with
  | same h =>
    rw [h]
    exact .same rfl
  | limit hle h he =>
    rw [h]
    exact .limit (Nat.succ_le_succ hle) rfl he
  | hidden h hreached hhides =>
    refine .hidden h ?_ hhides
    intro m e hfail
    obtain ⟨⟨m', e'⟩, hfail', heq⟩ := Option.map_eq_some_iff.mp hfail
    cases heq
    exact Nat.succ_le_succ (hreached m' e' hfail')
  | shown hle h hhides =>
    rw [h]
    exact .shown (Nat.succ_le_succ hle) rfl hhides

/-- A program fails at once when its first instruction does. -/
private theorem failureFrom_cons_of_error {e : Failure} (h : (i.call known).run b = .error e) :
    failureFrom (i :: p) known b = some (0, e) := by
  rw [failureFrom, h]

/-- After a first instruction that goes through, the rest fails one instruction later. -/
private theorem failureFrom_cons_of_ok {reply : Reply}
    (h : (i.call known).run b = .ok (reply, b')) :
    failureFrom (i :: p) known b
      = (failureFrom p (i.known known reply) b').map fun x => (x.1 + 1, x.2) := by
  rw [failureFrom, h]

/-- A program whose first instruction is judged a misuse fails there. -/
private theorem Outline.StandsIn.exists_failureFrom (h : o.StandsIn f known b.draft)
    (hmisuse : o.misuse? f i = some cause) :
    ∃ e, failureFrom (i :: p) known b = some (0, e) ∧ (e.IsSizeLimit ∨ e = .misuse cause) := by
  have hobeys := h.obeys_run i
  rw [hmisuse] at hobeys
  cases hrun : (i.call known).run b with
  | ok q =>
    rw [hrun] at hobeys
    cases hobeys
  | error e =>
    rw [hrun] at hobeys
    refine ⟨e, failureFrom_cons_of_error hrun, hobeys.imp_right ?_⟩
    rintro ⟨cause', rfl, heq⟩
    rw [Option.some.inj heq]

/-- **What becomes of a misuse in a program that is alike.** -/
theorem counterpart_of_failureFrom (hp : List.Forall₂ Instruction.Alike p p') (ho : o.Alike o')
    (h : o.StandsIn f known b.draft) (h' : o'.StandsIn f' known' b'.draft)
    (hfail : failureFrom p known b = some (n, .misuse cause))
    (hcause : ¬ (Failure.misuse cause).IsSizeLimit) :
    Counterpart f f' o o' p p' (failureFrom p' known' b') n cause := by
  -- Both programs advance in step, and their outlines stay alike for as long as both go through.
  induction hp generalizing o o' known known' b b' n with
  | nil => cases hfail
  | @cons i i' p p' hi hp ih =>
    have hobeys := h.obeys_run i
    obtain hsame | ⟨op, slot, ⟨hwritten, hhides⟩ | ⟨hwritten, hhides⟩⟩ := ho.misuse_cases hi f f'
    · cases hrun : (i.call known).run b with
      | error e =>
        rw [failureFrom_cons_of_error hrun] at hfail
        cases hfail
        rw [hrun] at hobeys
        obtain hlimit | ⟨cause', heq, hmisuse⟩ := hobeys
        · exact absurd hlimit hcause
        · cases heq
          obtain ⟨e', hfail', hlimit | rfl⟩ := h'.exists_failureFrom (hsame.symm.trans hmisuse)
          · exact .limit (Nat.le_refl 0) hfail' hlimit
          · exact .same hfail'
      | ok q =>
        obtain ⟨reply, c⟩ := q
        rw [failureFrom_cons_of_ok hrun] at hfail
        obtain ⟨⟨m, e⟩, hrest, heq⟩ := Option.map_eq_some_iff.mp hfail
        cases heq
        rw [hrun] at hobeys
        have hobeys' := h'.obeys_run i'
        rw [← hsame, show o.misuse? f i = none from hobeys] at hobeys'
        cases hrun' : (i'.call known').run b' with
        | error e' =>
          rw [hrun'] at hobeys'
          obtain hlimit | ⟨_, -, hnone⟩ := hobeys'
          · exact .limit (Nat.zero_le _) (failureFrom_cons_of_error hrun') hlimit
          · cases hnone
        | ok q' =>
          obtain ⟨reply', c'⟩ := q'
          rw [failureFrom_cons_of_ok hrun']
          exact (ih (ho.after hi) (h.perform (h.perform_of_run hrun))
            (h'.perform (h'.perform_of_run hrun')) hrest).cons
    · -- The program is refused here for a second write, which the other one does not see.
      obtain ⟨e, hfail', hlimit | rfl⟩ := h.exists_failureFrom (p := p) hwritten
      · rw [hfail'] at hfail
        cases hfail
        exact absurd hlimit hcause
      · rw [hfail'] at hfail
        cases hfail
        exact .hidden rfl (fun m _ _ => Nat.zero_le m) hhides
    · obtain ⟨e, hfail', hlimit | rfl⟩ := h'.exists_failureFrom (p := p') hwritten
      · exact .limit (Nat.zero_le n) hfail' hlimit
      · exact .shown (Nat.zero_le n) hfail' hhides

/-- Where a program goes through, what comes after it is run where it ends. -/
private theorem runProgram_of_failureFrom_eq_none (h : failureFrom p known b = none) :
    ∃ places after, runProgram p known b = .ok (places, after) ∧
      ∀ rest, failureFrom (p ++ rest) known b
        = (failureFrom rest places after).map fun x => (x.1 + p.length, x.2) := by
  induction p generalizing known b with
  | nil => exact ⟨known, b, rfl, fun rest => by simp⟩
  | cons i p ih =>
    cases hrun : (i.call known).run b with
    | error e =>
      rw [failureFrom_cons_of_error hrun] at h
      cases h
    | ok q =>
      obtain ⟨reply, c⟩ := q
      rw [failureFrom_cons_of_ok hrun, Option.map_eq_none_iff] at h
      obtain ⟨places, after, hrest, happend⟩ := ih h
      refine ⟨places, after, runProgram_cons_eq_ok_iff.mpr ⟨reply, c, hrun, hrest⟩, fun rest => ?_⟩
      rw [List.cons_append, failureFrom_cons_of_ok hrun, happend, Option.map_map]
      rfl

end Runs

namespace Builder

/-- **What is a misuse depends on the data only in what is a second write.** In a program that is
alike, with any options, the same call is refused for the same misuse, unless a limit on sizes stops
it, or one of the two hides the pushes to a slot to which the other has a second write. A push is
refused as a second write exactly where an earlier push to its slot in the open object was
written. -/
theorem misuse_alike (options options' : BuilderOptions) :
    (∀ p p' : List Instruction, List.Forall₂ Instruction.Alike p p' → ∀ n cause,
      failureOf options p = some (n, .misuse cause) → ¬ (Failure.misuse cause).IsSizeLimit →
        Counterpart options.forceDefaults options'.forceDefaults .empty .empty p p'
          (failureOf options' p') n cause) ∧
      ∀ before after slot what, failureOf options before = none →
        (failureOf options (before ++ .push slot what :: after)
            = some (before.length, .misuse (.slotWrittenTwice what.operation slot.toNat)) ↔
          ∃ count, (Outline.ofProgram before).progress = .building count ∧ slot < count ∧
            (Outline.ofProgram before).Writes options.forceDefaults slot) := by
  have hempty (options : BuilderOptions) :
      Outline.empty.StandsIn options.forceDefaults [] (withOptions options).draft := by
    rw [draft_withOptions]
    exact .stands_empty _
  constructor
  · intro p p' hp n cause hfail hcause
    exact counterpart_of_failureFrom hp (.refl _) (hempty options) (hempty options') hfail hcause
  · intro before after slot what hbefore
    obtain ⟨places, b, hrun, happend⟩ := runProgram_of_failureFrom_eq_none hbefore
    have hstands := (hempty options).run hrun
    rw [← Outline.ofProgram] at hstands
    rw [← hstands.writtenTwice_iff slot what, failureOf, happend]
    cases hcall : ((Instruction.push slot what).call places).run b with
    | error e =>
      rw [failureFrom_cons_of_error hcall]
      simp
    | ok q =>
      rw [failureFrom_cons_of_ok hcall]
      simp

/-- Two pushes to the same slot, whose default is zero. -/
def pushedTwice (first second : UInt8) : List Instruction :=
  [.startObject 1, .push 0 (.scalar .u8 first (0 : UInt8)),
    .push 0 (.scalar .u8 second (0 : UInt8))]

private theorem alike_pushedTwice (first second first' second' : UInt8) :
    List.Forall₂ Instruction.Alike (pushedTwice first second) (pushedTwice first' second') :=
  .cons (.refl _) (.cons (.push 0 (.scalar _ _ _ _ _)) (.cons (.push 0 (.scalar _ _ _ _ _)) .nil))

/-- The same calls are a misuse or none, as the data and the options are. -/
theorem misuse_of_pushedTwice :
    List.Forall₂ Instruction.Alike (pushedTwice 1 2) (pushedTwice 0 1) ∧
      failureOf ⟨64, false⟩ (pushedTwice 1 2)
        = some (2, .misuse (.slotWrittenTwice .pushSlot 0)) ∧
      failureOf ⟨64, false⟩ (pushedTwice 0 1) = none ∧
      failureOf ⟨64, true⟩ (pushedTwice 0 1)
        = some (2, .misuse (.slotWrittenTwice .pushSlot 0)) := by
  refine ⟨alike_pushedTwice 1 2 0 1, ?_, ?_, ?_⟩ <;> decide +kernel

/-- The second push of one program is elided, and its third one is refused as that of the other
program would be. -/
theorem misuse_alike_pushedTwice :
    Counterpart false false .empty .empty (pushedTwice 1 2) (pushedTwice 3 0)
        (failureOf ⟨64, false⟩ (pushedTwice 3 0)) 2 (.slotWrittenTwice .pushSlot 0) ∧
      failureOf ⟨64, false⟩ (pushedTwice 3 0)
        = some (2, .misuse (.slotWrittenTwice .pushSlot 0)) := by
  constructor
  · exact (misuse_alike ⟨64, false⟩ ⟨64, false⟩).1 _ _ (alike_pushedTwice 1 2 3 0) 2 _
      (by decide +kernel) id
  · exact ((misuse_alike ⟨64, false⟩ ⟨64, false⟩).2 ((pushedTwice 3 0).take 2) [] 0
      (.scalar .u8 (0 : UInt8) (0 : UInt8)) (by decide +kernel)).mpr ⟨1, rfl, by decide, by decide⟩

end Builder

end EnvelopeWire
