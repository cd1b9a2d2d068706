import EnvelopeWire.Proofs.Builder.Program
import EnvelopeWire.Proofs.Builder.Shape
import EnvelopeWire.Proofs.Description.RoundTrip

/-!
# What forcing defaults changes

A builder that forces defaults writes scalars that one that does not leaves out, so the two lay out
the same program differently, place its things differently and share vtables differently. A reader
cannot tell, as long as it asks for each scalar with the default that was given when it was pushed:
a scalar that was left out agrees with that default.

* `Outline.Admits.unforced`: what may be done with forced defaults may be done without.
* `fits_unforced`: a program that goes through with forced defaults does so without.
* `Outline.StandsIn.readsAlike`: the two buffers read the same.
* `Builder.readsAlike_of_forced`: the two together, also for descriptions of envelopes.
-/

namespace EnvelopeWire

/-! ### Fewer fields -/

section Fields

variable {forceDefaults : Bool} {known known' : List Offset} {pushes : List (UInt16 × Push)}

/-- Without forced defaults an object has some of the fields that it has with them. -/
private theorem shape_pushedFields_sublist (known known' : List Offset)
    (pushes : List (UInt16 × Push)) :
    (shape (pushedFields false known' pushes)).Sublist
      (shape (pushedFields true known pushes)) := by
  induction pushes with
  | nil => exact List.Sublist.refl _
  | cons head pushes ih =>
    have hhead : (shape (recordFields false [(head.1, head.2.slot known')])).Sublist
        (shape (recordFields true [(head.1, head.2.slot known)])) := by
      cases head.2 with
      | scalar type value default =>
        by_cases hagrees : type.agrees value default = true <;>
          simp [shape, recordFields, Push.slot, RecordSlot.value, hagrees]
      | reference number => exact List.Sublist.refl _
    have hsplit (forceDefaults : Bool) (known : List Offset) :
        shape (pushedFields forceDefaults known (head :: pushes))
          = shape (pushedFields forceDefaults known pushes)
            ++ shape (recordFields forceDefaults [(head.1, head.2.slot known)]) :=
      List.map_append
    rw [hsplit, hsplit]
    exact ih.append hhead

/-- With forced defaults every push leaves a field. -/
private theorem slots_pushedFields (known : List Offset) (pushes : List (UInt16 × Push)) :
    (pushedFields true known pushes).map (·.slot) = (pushes.map Prod.fst).reverse := by
  induction pushes with
  | nil => rfl
  | cons head pushes ih =>
    have hhead : (recordFields true [(head.1, head.2.slot known)]).map (·.slot) = [head.1] := by
      cases head.2 with
      | scalar type value default => simp [recordFields, Push.slot, RecordSlot.value]
      | reference number => rfl
    have hsplit : pushedFields true known (head :: pushes)
        = pushedFields true known pushes ++ recordFields true [(head.1, head.2.slot known)] := rfl
    rw [hsplit, List.map_append, ih, hhead, List.map_cons, List.reverse_cons]

/-- What stands in a slot is what was pushed there, if nothing was pushed twice. -/
private theorem valueIn_pushedFields (hnodup : (pushes.map Prod.fst).Nodup) {slot : UInt16}
    {what : Push} (hmem : (slot, what) ∈ pushes) :
    valueIn (pushedFields forceDefaults known pushes) slot
      = (what.slot known).value forceDefaults := by
  refine valueIn_recordFields ?_ (List.mem_map.mpr ⟨_, hmem, rfl⟩)
  rwa [List.map_map]

private theorem valueIn_pushedFields_of_notMem {slot : UInt16} (h : slot ∉ pushes.map Prod.fst) :
    valueIn (pushedFields forceDefaults known pushes) slot = none := by
  refine valueIn_recordFields_of_notMem ?_
  rwa [List.map_map]

end Fields

/-- **What may be done with forced defaults may be done without.** -/
theorem Outline.Admits.unforced {known : List Offset} {o : Outline} {instruction : Instruction}
    (h : o.Admits true known instruction) (known' : List Offset) :
    o.Admits false known' instruction := by
  have hsublist := shape_pushedFields_sublist known known' o.pushes
  cases instruction with
  | push slot what =>
    obtain ⟨hslot, hfresh, hscope⟩ := h
    refine ⟨hslot, fun f hf heq => ?_, hscope⟩
    obtain ⟨g, hg, hshape⟩ := List.mem_map.mp (hsublist.subset (List.mem_map.mpr ⟨f, hf, rfl⟩))
    exact hfresh g hg ((congrArg Prod.fst hshape).trans heq)
  | endObject => exact ⟨h.1, Nat.le_trans (objectLength_le_of_sublist hsublist) h.2⟩
  | _ => exact h

/-- **A program that goes through with forced defaults does so without**, where there is room. -/
theorem fits_unforced {o : Outline} {known known' places : List Offset} {program : List Instruction}
    {b b' after : Builder} (h : o.StandsIn true known b.draft)
    (h' : o.StandsIn false known' b'.draft)
    (hrun : runProgram program known b = .ok (places, after)) :
    Fits (b'.used + programCost program) (fun _ => True)
      (runProgram program known' b') := by
  induction program generalizing o known known' b b' with
  | nil => trivial
  | cons instruction program ih =>
    obtain ⟨reply, e, hcall, hrest⟩ := runProgram_cons_eq_ok_iff.mp hrun
    have hperform := h.perform_of_run hcall
    have hfits := h'.fits_run ((h.admits hperform).unforced known')
    rw [programCost, ← Nat.add_assoc]
    refine (hfits.mono (Nat.le_add_right _ _) fun _ _ hp => hp).bind fun p hp hused => ?_
    have hrest' := ih (h.perform hperform) (h'.perform (h'.perform_of_run hp)) hrest
    exact hrest'.mono (Nat.add_le_add_right hused _) fun _ _ _ => trivial

/-! ### Reading -/

/-- The table of the thing with a number, in a buffer where the things have the offsets `known`. -/
def Bytes.tableOf (data : Bytes) (known : List Offset) (number : Nat) : Table :=
  { buffer := data, position := data.length - (placeOf known number).value }

/-- What was pushed into `slot` reads the same in `t`, where defaults were forced, and in `t'`,
where they were not. A scalar that was left out reads as its default, which is the same number; only
a floating-point number may have other bits than the one that was pushed, and then it is a zero. -/
def Push.ReadsAlike (o : Outline) (known known' : List Offset) (t t' : Table) (slot : UInt16) :
    Push → Prop
  | scalar type value default => t.get type slot default = .ok value ∧
    ∃ value', t'.get type slot default = .ok value' ∧
      (value' = value ∨
        (type = .f32 ∨ type = .f64) ∧ value' = default ∧ type.agrees value default = true)
  | reference number => ∃ thing, o.things[number]? = some thing ∧
    t.RefersTo slot (placeOf known number) (thing.item true known) ∧
    t'.RefersTo slot (placeOf known' number) (thing.item false known')

/-- An object into which `pushes` were pushed reads the same in `t` and in `t'`. -/
structure Outline.ObjectReadsAlike (o : Outline) (known known' : List Offset) (t t' : Table)
    (pushes : List (UInt16 × Push)) : Prop where
  found : Table.ofPosition t.buffer t.position = .ok t
  found' : Table.ofPosition t'.buffer t'.position = .ok t'
  pushed : ∀ slot what, (slot, what) ∈ pushes → what.ReadsAlike o known known' t t' slot
  /-- Where nothing was pushed, nothing is found. -/
  absent : ∀ slot ∉ pushes.map Prod.fst, t.Shows [] slot none ∧ t'.Shows [] slot none

/-- What an outline tells of reads the same in `data`, where defaults were forced and the things
have the offsets `known`, and in `data'`, where they were not and the offsets are `known'`. -/
structure Outline.ReadsAlike (o : Outline) (known known' : List Offset) (data data' : Bytes) :
    Prop where
  objects : ∀ number pushes, o.things[number]? = some (.object pushes) →
    o.ObjectReadsAlike known known' (data.tableOf known number) (data'.tableOf known' number) pushes
  root : ∀ number pushes, o.progress = .finished number →
    o.things[number]? = some (.object pushes) →
      rootTable data = .ok (data.tableOf known number) ∧
        rootTable data' = .ok (data'.tableOf known' number)

/-- Values that are equal as numbers have the same bits, unless they are floating-point numbers. -/
private theorem ScalarType.eq_or_float_of_agrees {type : ScalarType} {v w : type.Value}
    (h : type.agrees v w = true) : v = w ∨ type = .f32 ∨ type = .f64 := by
  cases type with
  | f32 => exact .inr (.inl rfl)
  | f64 => exact .inr (.inr rfl)
  | _ => exact .inl (of_decide_eq_true h)

namespace Outline.StandsIn

variable {forceDefaults : Bool} {known known' : List Offset} {o : Outline} {d d' : Draft}
  {number : Nat} {pushes : List (UInt16 × Push)} {slot : UInt16}

/-- With forced defaults no slot is pushed twice, whatever is pushed. -/
private theorem nodup_of_forced (h : o.StandsIn true known d)
    (hthing : o.things[number]? = some (.object pushes)) : (pushes.map Prod.fst).Nodup := by
  obtain ⟨a, htold, hready⟩ := h
  obtain ⟨start, -, hstands⟩ := hready.describes.items _ _ (htold.items number _ hthing)
  have hnodup := hstands.laidOut.slots_nodup
  rwa [slots_pushedFields, List.nodup_reverse] at hnodup

private theorem found (h : o.StandsIn forceDefaults known d)
    (hthing : o.things[number]? = some (.object pushes)) :
    Table.ofPosition d.written (d.written.tableOf known number).position
      = .ok (d.written.tableOf known number) := by
  obtain ⟨a, htold, hready⟩ := h
  exact (hready.describes.ofPosition_eq (htold.items number _ hthing)).2

/-- Where nothing was pushed, nothing is found. -/
private theorem shows_none (h : o.StandsIn forceDefaults known d)
    (hthing : o.things[number]? = some (.object pushes)) (hslot : slot ∉ pushes.map Prod.fst) :
    (d.written.tableOf known number).Shows [] slot none := by
  obtain ⟨a, htold, hready⟩ := h
  have hmem := htold.items number _ hthing
  have hvalue : valueIn (pushedFields forceDefaults known pushes) slot = none :=
    valueIn_pushedFields_of_notMem hslot
  have hnothing {α : Type} (read : Nat → Except WireError α) :=
    hready.describes.getWith_of_absent hmem hvalue read
  exact ⟨hready.describes.get_of_absent hmem hvalue, hnothing _, hnothing _, hnothing _⟩

/-- A scalar that was pushed reads as itself or, where it was left out, as its default. -/
private theorem get_eq (h : o.StandsIn forceDefaults known d)
    (hthing : o.things[number]? = some (.object pushes)) (hnodup : (pushes.map Prod.fst).Nodup)
    {type : ScalarType} {value default : type.Value}
    (hmem : (slot, .scalar type value default) ∈ pushes) :
    (d.written.tableOf known number).get type slot default
      = .ok (if type.agrees value default && !forceDefaults then default else value) := by
  obtain ⟨a, htold, hready⟩ := h
  have hobject := htold.items number _ hthing
  have hvalue : valueIn (pushedFields forceDefaults known pushes) slot
      = RecordSlot.value forceDefaults (.scalar type value default) :=
    valueIn_pushedFields hnodup hmem
  rw [RecordSlot.value] at hvalue
  split at hvalue
  case isTrue hleft =>
    rw [if_pos hleft]
    exact hready.describes.get_of_absent hobject hvalue type default
  case isFalse hwritten =>
    rw [if_neg hwritten]
    exact hready.describes.get_of_scalar hobject hvalue default

/-- A reference that was pushed leads to the thing with its number. -/
private theorem refersTo (h : o.StandsIn forceDefaults known d)
    (hthing : o.things[number]? = some (.object pushes)) (hnodup : (pushes.map Prod.fst).Nodup)
    {target : Nat} (hmem : (slot, .reference target) ∈ pushes) :
    ∃ thing, o.things[target]? = some thing ∧
      (d.written.tableOf known number).RefersTo slot (placeOf known target)
        (thing.item forceDefaults known) := by
  obtain ⟨a, htold, hready⟩ := h
  have hobject := htold.items number _ hthing
  have hvalue : valueIn (pushedFields forceDefaults known pushes) slot
      = some (.reference (placeOf known target)) := valueIn_pushedFields hnodup hmem
  have hscope : target < known.length :=
    htold.things_inScope _ (List.mem_of_getElem? hthing) _ hmem
  rw [htold.length_eq] at hscope
  have htarget := List.getElem?_eq_getElem hscope
  exact ⟨_, htarget, hready.describes.refersTo hobject hvalue (htold.items target _ htarget)⟩

private theorem rootTable_eq (h : o.StandsIn forceDefaults known d)
    (hprogress : o.progress = .finished number)
    (hthing : o.things[number]? = some (.object pushes)) :
    rootTable d.written = .ok (d.written.tableOf known number) := by
  have hfound := h.found hthing
  obtain ⟨a, htold, hready⟩ := h
  rw [hprogress] at hready
  exact rootTable_of_stands hready.describes.used_le hready.stage.2.1 hready.stage.2.2 hfound

/-- **The two buffers read the same.** -/
theorem readsAlike (h : o.StandsIn true known d) (h' : o.StandsIn false known' d') :
    o.ReadsAlike known known' d.written d'.written where
  objects number pushes hthing := by
    have hnodup := h.nodup_of_forced hthing
    refine ⟨h.found hthing, h'.found hthing, fun slot what hmem => ?_, fun slot hslot =>
      ⟨h.shows_none hthing hslot, h'.shows_none hthing hslot⟩⟩
    cases what with
    | scalar type value default =>
      refine ⟨?_, _, h'.get_eq hthing hnodup hmem, ?_⟩
      · rw [h.get_eq hthing hnodup hmem, Bool.not_true, Bool.and_false]
        rfl
      · split
        case isTrue hleft =>
          rw [Bool.not_false, Bool.and_true] at hleft
          rcases ScalarType.eq_or_float_of_agrees hleft with heq | hfloat
          · exact .inl heq.symm
          · exact .inr ⟨hfloat, rfl, hleft⟩
        case isFalse => exact .inl rfl
    | reference target =>
      obtain ⟨thing, htarget, hrefers⟩ := h.refersTo hthing hnodup hmem
      obtain ⟨thing', htarget', hrefers'⟩ := h'.refersTo hthing hnodup hmem
      cases htarget.symm.trans htarget'
      exact ⟨thing, htarget, hrefers, hrefers'⟩
  root number pushes hprogress hthing :=
    ⟨h.rootTable_eq hprogress hthing, h'.rootTable_eq hprogress hthing⟩

end Outline.StandsIn

/-! ### Reports -/

/-- A content without the place of its table. -/
def ContentReport.unplaced : ContentReport → ContentReport
  | other tag _ => other tag 0
  | none => none
  | noMessage => noMessage
  | success => success
  | error code category reason => error code category reason
  | invalid e => invalid e

/-- Two reports say the same about an envelope, apart from where things are. -/
structure Report.SaysAlike (r r' : Report) : Prop where
  id : r.id = r'.id
  destination : r.destination = r'.destination
  contentType : r.contentType = r'.contentType
  content : r.content.unplaced = r'.content.unplaced

/-- What is reported about a content follows from its description, apart from its place. -/
private theorem ContentSpec.ReportedAs.unplaced_eq {spec : ContentSpec}
    {report report' : ContentReport} (h : spec.ReportedAs report) (h' : spec.ReportedAs report') :
    report.unplaced = report'.unplaced := by
  cases spec with
  | raw tag =>
    rw [ReportedAs] at h h'
    split_ifs at h h'
    case neg =>
      obtain ⟨position, rfl⟩ := h
      obtain ⟨position', rfl⟩ := h'
      rfl
    all_goals rw [h, h']
  | _ => rw [show report = _ from h, show report' = _ from h']

namespace Description

private theorem ReportedAs.saysAlike {d : Description} {report report' : Report}
    (h : d.ReportedAs true report) (h' : d.ReportedAs false report') :
    report.SaysAlike report' where
  id := h.id.trans h'.id.symm
  destination := h.destination.trans h'.destination.symm
  contentType := h.contentType.trans h'.contentType.symm
  content := by
    have hcontent := h.content
    have hcontent' := h'.content
    cases hspec : d.content with
    | none =>
      rw [hspec] at hcontent hcontent'
      rw [show report.content = _ from hcontent, show report'.content = _ from hcontent']
    | some spec =>
      rw [hspec] at hcontent hcontent'
      exact ContentSpec.ReportedAs.unplaced_eq hcontent hcontent'

/-- What encoding a description gives, or that there is no room for it. -/
private theorem gives_of_encode (options : BuilderOptions) (d : Description) :
    match d.encode options with
    | .ok data => d.Gives options.forceDefaults (.ok data)
    | .error (.content e) => d.Gives options.forceDefaults (.error e)
    | .error (.builder failure) => failure.isLimit = true ∧ maxBufferSize < d.textLength + 300 := by
  have hready : (Builder.withOptions options).draft.Ready options.forceDefaults .empty .idle 0 := by
    rw [Builder.draft_withOptions]
    exact ⟨Account.describes_empty _, rfl, rfl, Nat.le_refl 0⟩
  have hwrites := d.writes_description 0 _ hready
  rw [Nat.zero_add] at hwrites
  rw [encode]
  cases hwrite : d.write (Builder.withOptions options) with
  | error failure =>
    rw [hwrite] at hwrites
    exact hwrites
  | ok p =>
    rw [hwrite] at hwrites
    obtain ⟨a, stage, hgives, -⟩ := hwrites
    obtain ⟨result, b⟩ := p
    cases result with
    | error e => exact hgives
    | ok data => exact hgives

/-- What comes of encoding a description with forced defaults and without: either gives a buffer,
and the reports on the two say the same, or neither does, for the same fault, unless there is no
room for the texts and some 300 bytes. -/
def EncodesAlike (d : Description) :
    Except EncodeError Bytes → Except EncodeError Bytes → Prop
  | .ok data, .ok data' => ∃ report report', Report.ofBuffer data = .ok report ∧
    Report.ofBuffer data' = .ok report' ∧ report.SaysAlike report'
  | .error (.builder failure), _ => failure.isLimit = true ∧ maxBufferSize < d.textLength + 300
  | _, .error (.builder failure) => failure.isLimit = true ∧ maxBufferSize < d.textLength + 300
  | .error (.content e), .error (.content e') => e = e'
  | .ok _, .error (.content _) => False
  | .error (.content _), .ok _ => False

private theorem encodesAlike (d : Description) (capacity capacity' : Nat) :
    d.EncodesAlike (d.encode ⟨capacity, true⟩) (d.encode ⟨capacity', false⟩) := by
  have h := d.gives_of_encode ⟨capacity, true⟩
  have h' := d.gives_of_encode ⟨capacity', false⟩
  cases hencode : d.encode ⟨capacity, true⟩ with
  | ok data =>
    rw [hencode] at h
    cases hencode' : d.encode ⟨capacity', false⟩ with
    | ok data' =>
      rw [hencode'] at h'
      obtain ⟨report, hreport, hsays⟩ := h.2.exists_report
      obtain ⟨report', hreport', hsays'⟩ := h'.2.exists_report
      exact ⟨report, report', hreport, hreport', hsays.saysAlike hsays'⟩
    | error e =>
      rw [hencode'] at h'
      cases e with
      | content e => exact absurd h'.1 h.1
      | builder failure => exact h'
  | error e =>
    rw [hencode] at h
    cases e with
    | builder failure => exact h
    | content e =>
      cases hencode' : d.encode ⟨capacity', false⟩ with
      | ok data' =>
        rw [hencode'] at h'
        exact absurd h.1 h'.1
      | error e' =>
        rw [hencode'] at h'
        cases e' with
        | content e' => exact h.2.trans h'.2.symm
        | builder failure => exact h'

end Description

/-! ### From programs to reads -/

namespace Builder

/-- **Forcing defaults changes the layout, never the meaning.** A program that goes through with
forced defaults goes through without, unless it asks for more room than there is, and the finished
buffers read the same; and so do the reports on the buffers that a description stands for. -/
theorem readsAlike_of_forced (capacity capacity' : Nat) :
    (∀ program places b, runProgram program [] (withOptions ⟨capacity, true⟩) = .ok (places, b) →
      (∀ e, runProgram program [] (withOptions ⟨capacity', false⟩) = .error e →
        e.isLimit = true ∧ maxBufferSize < programCost program) ∧
      ∀ places' b', runProgram program [] (withOptions ⟨capacity', false⟩) = .ok (places', b') →
        ∀ op data after, Build.finishedData op b = .ok (data, after) →
          ∃ data', Build.finishedData op b' = .ok (data', b') ∧
            (Outline.ofProgram program).ReadsAlike places places' data data') ∧
      ∀ d : Description,
        d.EncodesAlike (d.encode ⟨capacity, true⟩) (d.encode ⟨capacity', false⟩) := by
  refine ⟨fun program places b hrun => ?_, fun d => d.encodesAlike capacity capacity'⟩
  have hempty (options : BuilderOptions) :
      Outline.empty.StandsIn options.forceDefaults [] (withOptions options).draft := by
    rw [draft_withOptions]
    exact .stands_empty _
  have hstands := (hempty ⟨capacity, true⟩).run hrun
  refine ⟨fun e hrun' => ?_, fun places' b' hrun' op data after hdata => ?_⟩
  · have hfits := fits_unforced (hempty ⟨capacity, true⟩) (hempty ⟨capacity', false⟩) hrun
    rw [hrun', ← used_draft, draft_withOptions] at hfits
    exact ⟨hfits.1, Nat.lt_of_lt_of_le hfits.2 (Nat.zero_add _).le⟩
  · have hstands' := (hempty ⟨capacity', false⟩).run hrun'
    obtain ⟨_, hchecked, heq⟩ := bind_eq_ok_iff.mp hdata
    cases heq
    -- The second program has come as far as the first one, so its buffer is finished too.
    have hphase : b'.phase = .finished := by
      obtain ⟨a, -, hready⟩ := hstands
      obtain ⟨root, hroot⟩ :=
        Progress.eq_finished hready.stage (Phase.checkFinished_eq_ok_iff.mp hchecked)
      obtain ⟨a', -, hready'⟩ := hstands'
      rw [hroot] at hready'
      exact hready'.stage.1
    refine ⟨b'.written, ?_, hstands.readsAlike hstands'⟩
    rw [Build.finishedData, (Phase.checkFinished_eq_ok_iff (u := ())).mpr hphase]
    rfl

/-- A string and an object that refers to it, with a negative zero where the default is zero and a
byte that equals its default. -/
def zerosProgram : List Instruction :=
  [.createString "hi", .startObject 3,
    .push 0 (.scalar .f64 (⟨0x8000000000000000⟩ : Binary64) (⟨0⟩ : Binary64)),
    .push 1 (.scalar .u8 (7 : UInt8) (7 : UInt8)), .push 2 (.reference 0), .endObject, .finish 1]

theorem readsAlike_of_forced_zeros :
    ∃ b b' data data',
      runProgram zerosProgram [] (withOptions ⟨64, true⟩) = .ok ([⟨8⟩, ⟨28⟩], b) ∧
      runProgram zerosProgram [] (withOptions ⟨8, false⟩) = .ok ([⟨8⟩, ⟨16⟩], b') ∧
      Build.finishedData .finishedData b = .ok (data, b) ∧
      Build.finishedData .finishedData b' = .ok (data', b') ∧
      data.length = 48 ∧ data'.length = 32 ∧
      rootTable data = .ok ⟨data, 20⟩ ∧ rootTable data' = .ok ⟨data', 16⟩ ∧
      Table.get ⟨data, 20⟩ .f64 0 (⟨0⟩ : Binary64) = .ok (⟨0x8000000000000000⟩ : Binary64) ∧
      Table.getString ⟨data, 20⟩ 2 = .ok (some "hi") ∧
      Table.getString ⟨data', 16⟩ 2 = .ok (some "hi") := by
  obtain ⟨⟨places, b⟩, hrun, hshown⟩ :=
    exists_ok_of_any (p := fun r => r.1 == [⟨8⟩, ⟨28⟩] && (r.2.phase == .finished
        && r.2.written.length == 48))
      (x := runProgram zerosProgram [] (withOptions ⟨64, true⟩)) (by decide +kernel)
  obtain ⟨⟨places', b'⟩, hrun', hshown'⟩ :=
    exists_ok_of_any (p := fun r => r.1 == [⟨8⟩, ⟨16⟩] && r.2.written.length == 32)
      (x := runProgram zerosProgram [] (withOptions ⟨8, false⟩)) (by decide +kernel)
  simp only [Bool.and_eq_true, beq_iff_eq] at hshown hshown'
  obtain ⟨rfl, hphase, hlength⟩ := hshown
  obtain ⟨rfl, hlength'⟩ := hshown'
  have hdata : Build.finishedData .finishedData b = .ok (b.written, b) := by
    rw [Build.finishedData, (Phase.checkFinished_eq_ok_iff (u := ())).mpr hphase]
    rfl
  obtain ⟨hprograms, -⟩ := readsAlike_of_forced 64 8
  obtain ⟨-, halike⟩ := hprograms zerosProgram _ b hrun
  obtain ⟨data', hdata', hreads⟩ := halike _ b' hrun' .finishedData _ _ hdata
  obtain ⟨_, -, heq⟩ := bind_eq_ok_iff.mp hdata'
  cases heq
  have htable : b.written.tableOf [⟨8⟩, ⟨28⟩] 1 = ⟨b.written, 20⟩ := by
    rw [Bytes.tableOf, hlength]
    rfl
  have htable' : b'.written.tableOf [⟨8⟩, ⟨16⟩] 1 = ⟨b'.written, 16⟩ := by
    rw [Bytes.tableOf, hlength']
    rfl
  have hobject := hreads.objects 1 _ rfl
  obtain ⟨hroot, hroot'⟩ := hreads.root 1 _ rfl rfl
  rw [htable, htable'] at hobject
  rw [htable] at hroot
  rw [htable'] at hroot'
  obtain ⟨thing, hthing, hstring, hstring'⟩ := hobject.pushed 2 _ (.tail _ (.tail _ (.head _)))
  obtain rfl : thing = .string "hi" := (Option.some.inj hthing).symm
  exact ⟨b, b', b.written, b'.written, hrun, hrun', hdata, hdata', hlength, hlength', hroot, hroot',
    (hobject.pushed 0 _ (.head _)).1, hstring, hstring'⟩

end Builder

end EnvelopeWire
