import EnvelopeWire.Proofs.Builder.Misuse
import EnvelopeWire.Proofs.Description.Record

/-!
# Programs

Where things end up in a buffer depends on the options of its builder, so a sequence of calls that
is to be made with several options cannot name them by their offsets. A program names them by their
number: the things created since the last reset are counted from zero, and each call is given the
offsets of the things that it refers to when its turn comes.

What a program creates is its `Outline`, which has numbers in place of offsets too and is the same
however the program is run. `Outline.Admits` says what may be done next, and `Outline.StandsIn` that
a draft has what the outline says.

* `Outline.StandsIn.perform`: an instruction that goes through keeps the outline true.
* `Outline.StandsIn.admits`: an instruction goes through only where it is admitted.
* `Outline.StandsIn.fits_of_admits`: where an instruction is admitted, it fails for want of room
  only.
* `Outline.StandsIn.run`: a program that goes through does what its outline says.
-/

namespace EnvelopeWire

/-- What a program pushes into a slot. -/
inductive Push
  | scalar (type : ScalarType) (value default : type.Value)
  /-- A reference to the thing with that number. -/
  | reference (number : Nat)

/-- A call in a program. -/
inductive Instruction
  | startObject (fields : UInt16)
  | push (slot : UInt16) (what : Push)
  | endObject
  | createString (text : String)
  | createByteVector (bytes : Bytes)
  | finish (root : Nat)
  | reset
  | finishedData
  | takeFinishedData

/-- The offset of the thing with a number. There is none for a number that nothing has yet; zero,
which is no offset of anything, stands in for it. -/
def placeOf (known : List Offset) (number : Nat) : Offset := known.getD number ⟨0⟩

/-- The call that an instruction stands for, where the things have the offsets `known`. -/
def Instruction.call (known : List Offset) : Instruction → Call
  | startObject fields => .startObject fields
  | push slot (.scalar type value default) => .pushSlot type slot value default
  | push slot (.reference number) => .pushSlotOffset slot (placeOf known number)
  | endObject => .endObject
  | createString text => .createString text
  | createByteVector bytes => .createByteVector bytes
  | finish root => .finish (placeOf known root)
  | reset => .reset
  | finishedData => .finishedData
  | takeFinishedData => .takeFinishedData

/-- The number of bytes that an instruction asks for at most. -/
def Instruction.cost : Instruction → Nat
  | startObject _ => 8
  | push _ _ | finish _ => 16
  | endObject => 12 + 2 * 65535
  | createString text => (utf8 text).length + 9
  | createByteVector bytes => bytes.length + 8
  | reset | finishedData | takeFinishedData => 0

/-- The number of bytes that a program asks for at most. -/
def programCost : List Instruction → Nat
  | [] => 0
  | instruction :: program => instruction.cost + programCost program

/-- The offset in a reply. -/
def Reply.place? : Reply → Option Offset
  | place offset => some offset
  | done | data _ => none

/-- The offsets of the things after an instruction. -/
def Instruction.known (known : List Offset) (reply : Reply) : Instruction → List Offset
  | reset => []
  | startObject _ | push _ _ | endObject | createString _ | createByteVector _ | finish _
  | finishedData | takeFinishedData => known ++ reply.place?.toList

/-- Runs a program where the things have the offsets `known`, and gives their offsets in the end. -/
def runProgram : List Instruction → List Offset → Build (List Offset)
  | [], known => return known
  | instruction :: program, known => do
    let reply ← (instruction.call known).run
    runProgram program (instruction.known known reply)

/-! ### Outlines -/

/-- What a program creates. -/
inductive Thing
  /-- An object, by what was pushed into its slots, first push first. -/
  | object (pushes : List (UInt16 × Push))
  | string (text : String)
  | vector (bytes : Bytes)

/-- How far a program has come. -/
inductive Progress
  | idle
  | building (count : UInt16)
  | finished (root : Nat)

/-- What a program has done since the last reset. -/
structure Outline where
  progress : Progress
  /-- What was pushed into the open object, first push first. -/
  pushes : List (UInt16 × Push)
  /-- What was created, in the order of the numbers. -/
  things : List Thing

namespace Outline

/-- Nothing was done. -/
def empty : Outline := { progress := .idle, pushes := [], things := [] }

/-- What was done after one more instruction. -/
def after (o : Outline) : Instruction → Outline
  | .startObject count => { o with progress := .building count, pushes := [] }
  | .push slot what => { o with pushes := o.pushes ++ [(slot, what)] }
  | .endObject => { o with progress := .idle, things := o.things ++ [.object o.pushes] }
  | .createString text => { o with things := o.things ++ [.string text] }
  | .createByteVector bytes => { o with things := o.things ++ [.vector bytes] }
  | .finish root => { o with progress := .finished root }
  | .reset => empty
  | .finishedData | .takeFinishedData => o

/-- What a program does. -/
def ofProgram (program : List Instruction) : Outline := program.foldl after empty

end Outline

/-! ### Where the things are -/

/-- A push as a slot of a record. -/
def Push.slot (known : List Offset) : Push → RecordSlot
  | scalar type value default => .scalar type value default
  | reference number => .reference (placeOf known number)

/-- The fields that pushes leave, last one first. -/
def pushedFields (forceDefaults : Bool) (known : List Offset) (pushes : List (UInt16 × Push)) :
    List Field :=
  recordFields forceDefaults (pushes.map fun p => (p.1, p.2.slot known))

/-- A thing as an account tells of it. -/
def Thing.item (forceDefaults : Bool) (known : List Offset) : Thing → Item
  | object pushes => .object (pushedFields forceDefaults known pushes)
  | string text => .string text
  | vector bytes => .vector bytes

/-- The stage of a construction that has come so far. -/
def Progress.stage (known : List Offset) : Progress → Stage
  | idle => .idle
  | building count => .building count
  | finished root => .finished (placeOf known root)

/-- A reference is to one of the first `count` things. -/
def Push.InScope (count : Nat) : Push → Prop
  | scalar _ _ _ => True
  | reference number => number < count

/-- All references are to some of the first `count` things. -/
def Thing.InScope (count : Nat) : Thing → Prop
  | object pushes => ∀ p ∈ pushes, p.2.InScope count
  | string _ | vector _ => True

section Scope

variable {count : Nat} {known more : List Offset} {forceDefaults : Bool}

/-- Later results do not change the place of an earlier one. -/
private theorem placeOf_append (h : count < known.length) :
    placeOf (known ++ more) count = placeOf known count := by
  rw [placeOf, placeOf, List.getD_append _ _ _ _ h]

/-- The last result has the last place. -/
private theorem placeOf_length (known : List Offset) (offset : Offset) :
    placeOf (known ++ [offset]) known.length = offset := by
  simp [placeOf]

/-- Only numbers that things have stand for offsets. -/
private theorem lt_length_of_placeOf_pos (h : 0 < (placeOf known count).value) :
    count < known.length := by
  by_contra hge
  rw [placeOf, List.getD_eq_default _ _ (Nat.le_of_not_lt hge)] at h
  exact Nat.lt_irrefl 0 h

private theorem Push.InScope.mono {p : Push} {count' : Nat} (h : p.InScope count)
    (hle : count ≤ count') :
    p.InScope count' := by
  cases p with
  | scalar type value default => trivial
  | reference number => exact Nat.lt_of_lt_of_le h hle

private theorem Thing.InScope.mono {thing : Thing} {count' : Nat} (h : thing.InScope count)
    (hle : count ≤ count') : thing.InScope count' := by
  cases thing with
  | object pushes => exact fun p hp => (h p hp).mono hle
  | string text => trivial
  | vector bytes => trivial

/-- Things to come do not change where a reference leads. -/
private theorem Push.slot_append {p : Push} (h : p.InScope known.length) :
    p.slot (known ++ more) = p.slot known := by
  cases p with
  | scalar type value default => rfl
  | reference number => rw [slot, slot, placeOf_append h]

/-- Later results do not change fields that refer to earlier ones. -/
private theorem pushedFields_append_known {pushes : List (UInt16 × Push)}
    (h : ∀ p ∈ pushes, p.2.InScope known.length) :
    pushedFields forceDefaults (known ++ more) pushes
      = pushedFields forceDefaults known pushes := by
  rw [pushedFields, pushedFields]
  exact congrArg _ (List.map_congr_left fun p hp => by rw [Push.slot_append (h p hp)])

/-- Later results do not change what stands already. -/
private theorem Thing.item_append {thing : Thing} (h : thing.InScope known.length) :
    thing.item forceDefaults (known ++ more) = thing.item forceDefaults known := by
  cases thing with
  | object pushes => exact congrArg Item.object (pushedFields_append_known h)
  | string text => rfl
  | vector bytes => rfl

/-- One more push leaves its fields in front of the others. -/
private theorem pushedFields_concat (pushes : List (UInt16 × Push)) (slot : UInt16) (what : Push) :
    pushedFields forceDefaults known (pushes ++ [(slot, what)])
      = recordFields forceDefaults [(slot, what.slot known)]
        ++ pushedFields forceDefaults known pushes := by
  rw [pushedFields, List.map_append, recordFields_append]
  rfl

end Scope

/-- What an account tells of an outline. -/
structure Outline.ToldBy (forceDefaults : Bool) (known : List Offset) (o : Outline) (a : Account) :
    Prop where
  length_eq : known.length = o.things.length
  pushes_inScope : ∀ p ∈ o.pushes, p.2.InScope known.length
  things_inScope : ∀ thing ∈ o.things, thing.InScope known.length
  fields : a.fields = pushedFields forceDefaults known o.pushes
  items : ∀ number thing, o.things[number]? = some thing →
    (placeOf known number, thing.item forceDefaults known) ∈ a.items

namespace Outline.ToldBy

variable {forceDefaults : Bool} {known : List Offset} {o : Outline} {a : Account}

private theorem told_empty (forceDefaults : Bool) :
    Outline.empty.ToldBy forceDefaults [] Account.empty where
  length_eq := rfl
  pushes_inScope := List.forall_mem_nil _
  things_inScope := List.forall_mem_nil _
  fields := rfl
  items _ _ h := by cases h

/-- The outline of an object that is started. -/
private theorem opened (h : o.ToldBy forceDefaults known a) (progress : Progress) :
    ToldBy forceDefaults known { o with progress := progress, pushes := [] }
      { a with fields := [] } where
  length_eq := h.length_eq
  pushes_inScope := List.forall_mem_nil _
  things_inScope := h.things_inScope
  fields := rfl
  items := h.items

/-- The outline of a push to the open object. -/
private theorem pushed (h : o.ToldBy forceDefaults known a) (slot : UInt16) {what : Push}
    (hwhat : what.InScope known.length) :
    ToldBy forceDefaults known { o with pushes := o.pushes ++ [(slot, what)] }
      (a.pushAll (recordFields forceDefaults [(slot, what.slot known)])) where
  length_eq := h.length_eq
  pushes_inScope := List.forall_mem_append.mpr
    ⟨h.pushes_inScope, List.forall_mem_singleton.mpr hwhat⟩
  things_inScope := h.things_inScope
  fields := by
    rw [pushedFields_concat, ← h.fields]
    rfl
  items := h.items

/-- A thing that is created gets the next number. -/
private theorem created (h : o.ToldBy forceDefaults known a) (thing : Thing)
    (hthing : thing.InScope known.length) (offset : Offset) (progress : Progress) :
    ToldBy forceDefaults (known ++ [offset])
      { o with progress := progress, things := o.things ++ [thing] }
      (a.add (thing.item forceDefaults known) (.place offset)) where
  length_eq := by rw [List.length_append, List.length_append, h.length_eq]; rfl
  pushes_inScope p hp := (h.pushes_inScope p hp).mono (by simp)
  things_inScope := by
    have hle : known.length ≤ (known ++ [offset]).length := by simp
    exact List.forall_mem_append.mpr ⟨fun t ht => (h.things_inScope t ht).mono hle,
      List.forall_mem_singleton.mpr (hthing.mono hle)⟩
  fields := by
    rw [pushedFields_append_known h.pushes_inScope, ← h.fields]
    rfl
  items number t ht := by
    rcases Nat.lt_or_ge number o.things.length with hlt | hge
    · rw [List.getElem?_append_left hlt] at ht
      rw [placeOf_append (by rwa [h.length_eq]),
        Thing.item_append (h.things_inScope t (List.mem_of_getElem? ht))]
      exact List.mem_cons_of_mem _ (h.items number t ht)
    · obtain ⟨hnumber, rfl⟩ : number = o.things.length ∧ thing = t := by
        rw [List.getElem?_append_right hge] at ht
        have hlt := (List.getElem?_eq_some_iff.mp ht).1
        rw [List.length_singleton] at hlt
        have hnumber : number = o.things.length := by omega
        rw [hnumber, Nat.sub_self] at ht
        exact ⟨hnumber, Option.some.inj ht⟩
      rw [hnumber, ← h.length_eq, placeOf_length, Thing.item_append hthing]
      exact List.mem_cons_self

/-- Things that were created are known. -/
private theorem knows (h : o.ToldBy forceDefaults known a) {number : Nat}
    (hlt : number < known.length) :
    a.Knows (placeOf known number) := by
  rw [h.length_eq] at hlt
  exact Account.knows_of_mem (h.items number _ (List.getElem?_eq_getElem hlt))

end Outline.ToldBy

/-! ### What may be done next -/

/-- What is needed for an instruction, judged from the outline and the options. -/
def Outline.Admits (forceDefaults : Bool) (known : List Offset) (o : Outline) : Instruction → Prop
  | .startObject count => o.progress = .idle ∧ count.toNat ≤ maxFields
  | .push slot what => (∃ count, o.progress = .building count ∧ slot < count) ∧
    (∀ f ∈ pushedFields forceDefaults known o.pushes, f.slot ≠ slot) ∧ what.InScope o.things.length
  | .endObject => (∃ count, o.progress = .building count) ∧
    objectLength (pushedFields forceDefaults known o.pushes) ≤ 65535
  | .createString _ | .createByteVector _ => o.progress = .idle
  | .finish root => o.progress = .idle ∧ root < o.things.length
  | .reset => True
  | .finishedData | .takeFinishedData => ∃ root, o.progress = .finished root

namespace Progress

variable {p : Progress} {known : List Offset}

private theorem eq_idle (h : p.stage known = .idle) : p = .idle := by
  cases p with
  | idle => rfl
  | building count => cases h
  | finished root => cases h

/-- The outline knows which object is open. -/
private theorem eq_building {count : UInt16} (h : p.stage known = .building count) :
    p = .building count := by
  cases p with
  | idle => cases h
  | building count => cases h; rfl
  | finished root => cases h

theorem eq_finished {d : Draft} (h : (p.stage known).Matches d) (hphase : d.phase = .finished) :
    ∃ root, p = .finished root := by
  cases p with
  | idle => cases hphase.symm.trans h
  | building count =>
    obtain ⟨start, hbuilding⟩ := h
    cases hphase.symm.trans hbuilding
  | finished root => exact ⟨root, rfl⟩

end Progress

/-- A draft has what an outline says. -/
def Outline.StandsIn (forceDefaults : Bool) (known : List Offset) (o : Outline) (d : Draft) :
    Prop :=
  ∃ a, o.ToldBy forceDefaults known a ∧ d.Ready forceDefaults a (o.progress.stage known) d.used

namespace Outline.StandsIn

variable {forceDefaults : Bool} {known : List Offset} {o : Outline} {d d' : Draft}
  {instruction : Instruction} {reply : Reply}

theorem stands_empty (forceDefaults : Bool) :
    Outline.empty.StandsIn forceDefaults [] (Draft.empty forceDefaults) :=
  ⟨.empty, .told_empty _, Account.describes_empty _, rfl, rfl, Nat.le_refl _⟩

/-- **An instruction goes through only where it is admitted.** -/
theorem admits (h : o.StandsIn forceDefaults known d)
    (hperform : d.perform (instruction.call known) = .ok (reply, d')) :
    o.Admits forceDefaults known instruction := by
  obtain ⟨a, htold, hready⟩ := h
  -- The slot that a push is for is free in the marks, which are those of the fields.
  have hfree {op : Operation} {slot : UInt16}
      (hcheck : d.phase.checkSlot d.fields op slot = .ok ()) :
      (∃ count, o.progress = .building count ∧ slot < count) ∧
        ∀ f ∈ pushedFields forceDefaults known o.pushes, f.slot ≠ slot := by
    obtain ⟨start, count, hphase, hslot, hfresh⟩ := Phase.checkSlot_eq_ok_iff.mp hcheck
    rw [(hready.describes.openObject start count hphase).fields_eq, htold.fields] at hfresh
    exact ⟨⟨count, Progress.eq_building (hready.stage.eq_building hphase), hslot⟩,
      forall_mem_marks (p := (· ≠ slot)).mp hfresh⟩
  have hidle (hphase : d.phase = .idle) : o.progress = .idle :=
    Progress.eq_idle (hready.stage.eq_idle hphase)
  have hscope {number : Nat} (hpos : 0 < (placeOf known number).value) :
      number < o.things.length := by
    rw [← htold.length_eq]
    exact lt_length_of_placeOf_pos hpos
  cases instruction with
  | startObject count =>
    cases Draft.step_of_perform hperform with | startObject hphase hcount _ => ?_
    exact ⟨hidle hphase, hcount⟩
  | push slot what =>
    cases what with
    | scalar type value default =>
      cases Draft.step_of_perform hperform with
      | elided hcheck _ => exact ⟨(hfree hcheck).1, (hfree hcheck).2, trivial⟩
      | pushSlot hcheck _ _ => exact ⟨(hfree hcheck).1, (hfree hcheck).2, trivial⟩
    | reference number =>
      cases Draft.step_of_perform hperform with | pushSlotOffset hcheck href => ?_
      obtain ⟨hpos, -, -⟩ := Draft.putAligned_of_putReference href
      exact ⟨(hfree hcheck).1, (hfree hcheck).2, hscope hpos⟩
  | endObject =>
    cases Draft.step_of_perform hperform with | @endObject start count _ _ hphase hclose => ?_
    obtain ⟨p, hpad, -, -, hlength, -⟩ := Draft.closeObject_eq_ok_iff.mp hclose
    obtain ⟨-, hused, -, -⟩ := (hready.describes.openObject start count hphase).padded hpad
    rw [hused, Nat.add_sub_cancel_left, htold.fields] at hlength
    exact ⟨⟨count, Progress.eq_building (hready.stage.eq_building hphase)⟩, hlength⟩
  | createString text =>
    cases Draft.step_of_perform hperform with | createString hphase _ => ?_
    exact hidle hphase
  | createByteVector bytes =>
    cases Draft.step_of_perform hperform with | createByteVector hphase _ => ?_
    exact hidle hphase
  | finish root =>
    obtain ⟨hpos, -, -, -⟩ := Draft.stands_of_finish hperform
    cases Draft.step_of_perform hperform with | finish hphase _ _ => ?_
    exact ⟨hidle hphase, hscope hpos⟩
  | reset => trivial
  | finishedData =>
    cases Draft.step_of_perform hperform with | finishedData hphase => ?_
    exact Progress.eq_finished hready.stage hphase
  | takeFinishedData =>
    cases Draft.step_of_perform hperform with | takeFinishedData hphase => ?_
    exact Progress.eq_finished hready.stage hphase

/-- **An instruction that goes through keeps the outline true.** -/
theorem perform (h : o.StandsIn forceDefaults known d)
    (hperform : d.perform (instruction.call known) = .ok (reply, d')) :
    (o.after instruction).StandsIn forceDefaults (instruction.known known reply) d' := by
  have hadmits := h.admits hperform
  obtain ⟨a, htold, hready⟩ := h
  have hdescribes := hready.describes.perform hperform
  rw [hready.forceDefaults] at hdescribes
  have hforce := (Draft.forceDefaults_of_perform hperform).trans hready.forceDefaults
  have hstage := hready.stage.perform hperform
  -- It remains to see that outline and account are extended by the same.
  suffices htells : (o.after instruction).ToldBy forceDefaults (instruction.known known reply)
      (a.note forceDefaults (instruction.call known) reply) ∧
      (o.after instruction).progress.stage (instruction.known known reply)
        = (o.progress.stage known).after (instruction.call known) by
    exact ⟨_, htells.1, hdescribes, hforce, htells.2 ▸ hstage, Nat.le_refl _⟩
  have hsame {reply : Reply} (hreply : reply.place? = none) :
      known ++ reply.place?.toList = known := by
    rw [hreply]
    exact List.append_nil known
  cases instruction with
  | startObject count =>
    cases Draft.step_of_perform hperform with | startObject _ _ _ => ?_
    rw [Instruction.known, hsame rfl]
    exact ⟨htold.opened _, rfl⟩
  | push slot what =>
    obtain ⟨-, -, hscope⟩ := hadmits
    rw [← htold.length_eq] at hscope
    have hpushed := htold.pushed slot hscope
    cases what with
    | scalar type value default =>
      obtain rfl : reply = .done := by cases Draft.step_of_perform hperform <;> rfl
      rw [Instruction.known, hsame rfl, Instruction.call, a.note_pushSlot]
      exact ⟨hpushed, rfl⟩
    | reference number =>
      obtain rfl : reply = .done := by cases Draft.step_of_perform hperform; rfl
      rw [Instruction.known, hsame rfl]
      exact ⟨hpushed, rfl⟩
  | endObject =>
    cases Draft.step_of_perform hperform with | endObject _ _ => ?_
    have hcreated := fun offset =>
      htold.created (.object o.pushes) htold.pushes_inScope offset .idle
    simp only [Thing.item, ← htold.fields] at hcreated
    exact ⟨hcreated _, rfl⟩
  | createString text =>
    cases Draft.step_of_perform hperform with | createString _ _ => ?_
    have hidle : o.progress = .idle := hadmits
    refine ⟨htold.created (.string text) trivial _ o.progress, ?_⟩
    rw [Outline.after, hidle]
    rfl
  | createByteVector bytes =>
    cases Draft.step_of_perform hperform with | createByteVector _ _ => ?_
    have hidle : o.progress = .idle := hadmits
    refine ⟨htold.created (.vector bytes) trivial _ o.progress, ?_⟩
    rw [Outline.after, hidle]
    rfl
  | finish root =>
    cases Draft.step_of_perform hperform with | finish _ _ _ => ?_
    rw [Instruction.known, hsame rfl]
    exact ⟨⟨htold.length_eq, htold.pushes_inScope, htold.things_inScope, htold.fields,
      htold.items⟩, rfl⟩
  | reset => exact ⟨.told_empty _, rfl⟩
  | finishedData =>
    cases Draft.step_of_perform hperform with | finishedData _ => ?_
    rw [Instruction.known, hsame rfl]
    exact ⟨htold, rfl⟩
  | takeFinishedData =>
    cases Draft.step_of_perform hperform with | takeFinishedData _ => ?_
    rw [Instruction.known, hsame rfl]
    exact ⟨htold, rfl⟩

/-- **Where an instruction is admitted, it fails for want of room only.** -/
theorem fits_of_admits (h : o.StandsIn forceDefaults known d)
    (hadmits : o.Admits forceDefaults known instruction) :
    Fits (d.used + instruction.cost) (fun p => p.2.used ≤ d.used + instruction.cost)
      (d.perform (instruction.call known)) := by
  obtain ⟨a, htold, hready⟩ := h
  have hused {stage : Stage} {cost : Nat} {x : Except Failure (Reply × Draft)}
      (hcost : cost ≤ instruction.cost)
      (hx : Fits (d.used + cost) (fun p => stage.Matches p.2 ∧ p.2.used ≤ d.used + cost) x) :
      Fits (d.used + instruction.cost) (fun p => p.2.used ≤ d.used + instruction.cost) x := by
    have hle : d.used + cost ≤ d.used + instruction.cost := Nat.add_le_add_left hcost _
    exact hx.mono hle fun _ _ hp => Nat.le_trans hp.2 hle
  -- Taking the data of a finished buffer writes nothing.
  have htaken {op : Operation} (hphase : d.phase = .finished) :
      Fits (d.used + instruction.cost) (fun p => p.2.used ≤ d.used + instruction.cost)
        (d.phase.checkFinished op >>= fun _ => .ok (Reply.data d.written, d)) := by
    rw [(Phase.checkFinished_eq_ok_iff (u := ())).mpr hphase]
    exact Nat.le_add_right _ _
  cases instruction with
  | startObject count =>
    obtain ⟨hidle, hcount⟩ := hadmits
    rw [hidle] at hready
    exact hused (Nat.le_refl _) (hready.startObject hcount)
  | push slot what =>
    obtain ⟨⟨count, hbuilding, hslot⟩, hfresh, hscope⟩ := hadmits
    rw [hbuilding] at hready
    rw [← htold.fields] at hfresh
    cases what with
    | scalar type value default =>
      exact hused (Nat.le_refl _) (hready.pushSlot hslot hfresh type value default)
    | reference number =>
      have hknows : a.Knows (placeOf known number) := htold.knows (by rwa [htold.length_eq])
      exact hused (show 8 ≤ 16 by decide) (hready.pushSlotOffset hslot hfresh hknows)
  | endObject =>
    obtain ⟨⟨count, hbuilding⟩, hlength⟩ := hadmits
    rw [hbuilding] at hready
    rw [← htold.fields] at hlength
    have hcount := count.toNat_lt
    refine hused ?_ (hready.endObject hlength)
    rw [Instruction.cost]
    omega
  | createString text =>
    have hidle : o.progress = .idle := hadmits
    rw [hidle] at hready
    exact hused (Nat.le_refl _) (hready.createString text)
  | createByteVector bytes =>
    have hidle : o.progress = .idle := hadmits
    rw [hidle] at hready
    exact hused (Nat.le_refl _) (hready.createByteVector bytes)
  | finish root =>
    obtain ⟨hidle, hscope⟩ := hadmits
    rw [hidle] at hready
    exact hused (Nat.le_refl _) (hready.finish (htold.knows (by rwa [htold.length_eq])))
  | reset => exact Nat.zero_le _
  | finishedData =>
    obtain ⟨root, hfinished⟩ := hadmits
    rw [hfinished] at hready
    exact htaken hready.stage.1
  | takeFinishedData =>
    obtain ⟨root, hfinished⟩ := hadmits
    rw [hfinished] at hready
    exact htaken hready.stage.1

end Outline.StandsIn

/-! ### Runs -/

section Runs

variable {forceDefaults : Bool} {known places : List Offset} {o : Outline}
  {instruction : Instruction} {program : List Instruction} {b b' : Builder} {reply : Reply}

/-- A run is its first instruction, then the run of the others. -/
theorem runProgram_cons_eq_ok_iff :
    runProgram (instruction :: program) known b = .ok (places, b') ↔ ∃ reply e,
      (instruction.call known).run b = .ok (reply, e) ∧
        runProgram program (instruction.known known reply) e = .ok (places, b') := by
  rw [runProgram]
  refine bind_eq_ok_iff.trans ⟨?_, ?_⟩
  · rintro ⟨⟨reply, e⟩, hcall, hrest⟩
    exact ⟨reply, e, hcall, hrest⟩
  · rintro ⟨reply, e, hcall, hrest⟩
    exact ⟨(reply, e), hcall, hrest⟩

/-- What is known of drafts holds of the builders that show them. -/
theorem Outline.StandsIn.perform_of_run (h : o.StandsIn forceDefaults known b.draft)
    (hcall : (instruction.call known).run b = .ok (reply, b')) :
    b.draft.perform (instruction.call known) = .ok (reply, b'.draft) := by
  obtain ⟨a, -, hready⟩ := h
  exact Builder.perform_of_run hready.describes.vtablesWritten hcall

/-- An instruction that the outline admits goes through, or fails for want of room. -/
theorem Outline.StandsIn.fits_run (h : o.StandsIn forceDefaults known b.draft)
    (hadmits : o.Admits forceDefaults known instruction) :
    Fits (b.used + instruction.cost) (fun p => p.2.used ≤ b.used + instruction.cost)
      ((instruction.call known).run b) := by
  have hfits := h.fits_of_admits hadmits
  obtain ⟨a, -, hready⟩ := h
  rw [← Builder.perform_draft _ hready.describes.vtablesWritten] at hfits
  simpa only [Builder.used_draft] using hfits.of_map

/-- **A program that goes through does what its outline says.** -/
theorem Outline.StandsIn.run (h : o.StandsIn forceDefaults known b.draft)
    (hrun : runProgram program known b = .ok (places, b')) :
    (program.foldl Outline.after o).StandsIn forceDefaults places b'.draft := by
  induction program generalizing o known b with
  | nil =>
    cases hrun
    exact h
  | cons instruction program ih =>
    obtain ⟨reply, e, hcall, hrest⟩ := runProgram_cons_eq_ok_iff.mp hrun
    exact ih (h.perform (h.perform_of_run hcall)) hrest

end Runs

end EnvelopeWire
