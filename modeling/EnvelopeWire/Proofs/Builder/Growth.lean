import EnvelopeWire.Proofs.Builder.Shape
import EnvelopeWire.Proofs.Description.Record

/-!
# What an object adds to a buffer

Every object starts on a multiple of eight bytes, so it adds three things to what is written: the
padding up to where it starts, its own bytes, and its vtable unless that one is shared. An object
that shares the vtable of the one before it saves the vtable, but it may need padding to get to its
start that the other one did not need.

The padding is never longer than the vtable, and it is as long in one case only: a vtable of six
bytes behind an object of twelve, whose one field is in slot 0 and has eight bytes. Where such an
object starts without padding, the next one like it adds as much, and sharing saves nothing.

* `padding_behind_le`: the padding behind an object and its vtable against the vtable.
* `Draft.growth_of_run`: what an object adds, with a vtable of its own or with a shared one.
* `Builder.sharing_saves`: the second of two objects of one shape against the first.
-/

namespace EnvelopeWire

/-! ### Scalars and the objects of them -/

/-- A scalar that is pushed into a slot. -/
structure ScalarPush where
  slot : UInt16
  type : ScalarType
  value : type.Value
  default : type.Value

namespace ScalarPush

/-- The call that pushes the scalar. -/
def call (p : ScalarPush) : Call := .pushSlot p.type p.slot p.value p.default

/-- The slot of a record that the scalar is pushed into. -/
def recordSlot (p : ScalarPush) : UInt16 × RecordSlot := (p.slot, .scalar p.type p.value p.default)

end ScalarPush

/-- The calls that write an object of scalars. -/
def objectCalls (count : UInt16) (pushes : List ScalarPush) : List Call :=
  .startObject count :: (pushes.map ScalarPush.call ++ [.endObject])

/-- The fields that an object of scalars has, last one first; a default that is left out is none. -/
def scalarFields (forceDefaults : Bool) (pushes : List ScalarPush) : List Field :=
  recordFields forceDefaults (pushes.map ScalarPush.recordSlot)

private theorem scalarFields_singleton (forceDefaults : Bool) (p : ScalarPush) :
    scalarFields forceDefaults [p] =
      if p.type.agrees p.value p.default && !forceDefaults then []
      else [{ slot := p.slot, value := .scalar p.type p.value }] := by
  rw [scalarFields, List.map_singleton, recordFields, ScalarPush.recordSlot, RecordSlot.value]
  split <;> rfl

/-- The field of the first push is the last of the fields. -/
private theorem scalarFields_cons (forceDefaults : Bool) (p : ScalarPush)
    (pushes : List ScalarPush) :
    scalarFields forceDefaults (p :: pushes)
      = scalarFields forceDefaults pushes ++ scalarFields forceDefaults [p] := by
  rw [scalarFields, scalarFields, scalarFields, ← recordFields_append]
  rfl

/-! ### Lengths -/

/-- A field is as wide as a scalar or a reference. -/
private theorem FieldValue.width_cases (v : FieldValue) :
    v.width = 1 ∨ v.width = 2 ∨ v.width = 4 ∨ v.width = 8 := by
  cases v with
  | scalar type value => cases type <;> simp [width, ScalarType.width]
  | reference target => simp [width]

/-- An object has the exceptional shape when its one field is of eight bytes and in slot 0. -/
private theorem shape_eq_singleton_iff {fields : List Field} :
    shape fields = [(0, 8)] ↔ ∃ f, fields = [f] ∧ f.slot = 0 ∧ f.value.width = 8 := by
  rw [shape, List.map_eq_singleton_iff]
  simp only [Prod.mk.injEq]

/-- An object with an entry for one slot has one field, and this is in slot 0. -/
private theorem eq_singleton_of_covered_eq_one {fields : List Field} (hcovered : covered fields = 1)
    (hnodup : (fields.map (·.slot)).Nodup) : ∃ f, fields = [f] ∧ f.slot = 0 := by
  have hzero : ∀ f ∈ fields, f.slot = 0 := fun f hf => by
    have hlt := slot_lt_covered hf
    exact UInt16.toNat_inj.mp (show f.slot.toNat = 0 by omega)
  match fields with
  | [] => cases hcovered
  | [f] => exact ⟨f, rfl, hzero f (.head _)⟩
  | f :: g :: rest =>
    have hfirst := hzero f (.head _)
    have hsecond := hzero g (.tail _ (.head _))
    simp [hfirst, hsecond] at hnodup

/-- **The padding behind an object and its vtable** is no longer than the vtable, and as long only
where eight bytes in slot 0 are all that the object has. -/
theorem padding_behind_le {fields : List Field} (hnodup : (fields.map (·.slot)).Nodup) :
    padding (objectLength fields + (vtableOf fields).length) 8 ≤ (vtableOf fields).length ∧
      (padding (objectLength fields + (vtableOf fields).length) 8 = (vtableOf fields).length ↔
        shape fields = [(0, 8)]) := by
  rw [shape_eq_singleton_iff, length_vtableOf]
  rcases hcovered : covered fields with _ | _ | more
  case zero =>
    obtain rfl : fields = [] := by
      cases fields with
      | nil => rfl
      | cons f fields =>
        have hlt := slot_lt_covered (List.mem_cons_self (a := f) (l := fields))
        omega
    simp [objectLength, extent, padding]
  case succ.zero =>
    obtain ⟨f, rfl, hslot⟩ := eq_singleton_of_covered_eq_one hcovered hnodup
    rcases f.value.width_cases with hwidth | hwidth | hwidth | hwidth <;>
      simp [objectLength, extent, padding, hwidth, hslot]
  case succ.succ =>
    -- Two entries make a vtable of eight bytes, and padding is shorter than that.
    have hlt : padding (objectLength fields + (4 + 2 * (more + 1 + 1))) 8 < 8 :=
      padding_lt (by decide)
    refine ⟨by omega, ⟨fun heq => by omega, ?_⟩⟩
    rintro ⟨f, rfl, hslot, -⟩
    rw [covered, covered, hslot] at hcovered
    change max 1 0 = _ at hcovered
    omega

/-! ### What an object adds -/

namespace Draft

/-- Linking a vtable adds the reference to it, and the vtable itself unless it is shared. -/
private theorem used_of_linkVTable {d d' : Draft} {object : Nat} {vtable : Bytes}
    (h : d.linkVTable object vtable = .ok d') :
    d'.vtables = d.vtables ∧ d'.vtablesReused = d.vtablesReused + 1 ∧ d'.used = d.used + 4 ∨
      d'.vtables.length = d.vtables.length + 1 ∧ d'.vtablesReused = d.vtablesReused ∧
        d'.used = d.used + 4 + vtable.length := by
  rw [linkVTable] at h
  split at h
  all_goals
    obtain ⟨hvtables, hreused⟩ := vtables_of_put h
    have hused := used_of_put h
  · rw [length_vtableReference] at hused
    exact .inl ⟨hvtables, hreused, hused⟩
  · rw [List.length_append, length_vtableReference] at hused
    change d'.used = d.used + (vtable.length + 4) at hused
    have hcount : d'.vtables.length = d.vtables.length + 1 := by
      rw [hvtables, List.length_append, List.length_singleton]
    exact .inr ⟨hcount, hreused, by omega⟩

/-- An object with `count` slots, which was opened in `d`, is open in `d'` and has `fields`. -/
private structure Filled (d d' : Draft) (count : UInt16) (fields : List Field) : Prop where
  phase : d'.phase = .building (d.used + padding d.used 8) count
  openObject : OpenObject d' (d.used + padding d.used 8) count fields
  vtables : d'.vtables = d.vtables
  vtablesReused : d'.vtablesReused = d.vtablesReused
  forceDefaults : d'.forceDefaults = d.forceDefaults

/-- What was added by an object of `fields`: with a vtable of its own, or with a shared one. -/
def Added (d d' : Draft) (fields : List Field) : Prop :=
  d'.vtables = d.vtables ∧ d'.vtablesReused = d.vtablesReused + 1 ∧
      d'.used = d.used + padding d.used 8 + objectLength fields ∨
    d'.vtables.length = d.vtables.length + 1 ∧ d'.vtablesReused = d.vtablesReused ∧
      d'.used = d.used + padding d.used 8 + objectLength fields + (vtableOf fields).length

section Object

variable {d d' e : Draft} {count : UInt16} {reply : Reply} {fields : List Field}

/-- An object is opened on a multiple of eight. -/
private theorem filled_of_startObject (h : d.perform (.startObject count) = .ok (reply, d')) :
    Filled d d' count [] := by
  cases step_of_perform h with | @startObject _ p hidle hcount hpad => ?_
  have hused : p.used = d.used + padding d.used 8 := used_of_pad hpad
  obtain ⟨hvtables, hreused⟩ := vtables_of_pad hpad
  have hmod : p.used % 8 = 0 := by
    rw [hused]
    exact padding_spec d.used (by decide)
  refine ⟨?_, ?_, hvtables, hreused, forceDefaults_of_perform h⟩
  · rw [← hused]
  · rw [← hused]
    exact OpenObject.opened hcount hmod rfl

/-- A scalar is one more field, unless it is left out. -/
private theorem Filled.push (hfilled : Filled d d' count fields) {p : ScalarPush}
    (h : d'.perform p.call = .ok (reply, e)) :
    Filled d e count (scalarFields d.forceDefaults [p] ++ fields) := by
  obtain ⟨slot, type, value, default⟩ := p
  change d'.perform (.pushSlot type slot value default) = .ok (reply, e) at h
  obtain ⟨hvtables, hreused⟩ := vtables_of_perform (by simp) (by simp) h
  have hforce := forceDefaults_of_perform h
  rw [hfilled.vtables] at hvtables
  rw [hfilled.vtablesReused] at hreused
  rw [hfilled.forceDefaults] at hforce
  cases step_of_perform h with
  | elided hcheck helided =>
    rw [hfilled.forceDefaults] at helided
    rw [scalarFields_singleton, if_pos helided]
    exact ⟨hfilled.phase, hfilled.openObject, hvtables, hreused, hforce⟩
  | @pushSlot _ _ _ _ p hcheck hwritten hput =>
    rw [hfilled.forceDefaults] at hwritten
    obtain ⟨start, count', hphase, hslot, hfresh⟩ := Phase.checkSlot_eq_ok_iff.mp hcheck
    cases hfilled.phase.symm.trans hphase
    rw [scalarFields_singleton, if_neg hwritten]
    refine ⟨?_, ?_, hvtables, hreused, hforce⟩
    · exact (phase_of_putAligned hput).trans hfilled.phase
    · exact hfilled.openObject.push (v := .scalar type value) hslot hfresh hput (by simp)

/-- So are any number of them. -/
private theorem Filled.run (hfilled : Filled d d' count fields) {pushes : List ScalarPush}
    {calls : List Call} {replies : List Reply} {c : Draft}
    (h : d'.run (pushes.map ScalarPush.call ++ calls) = .ok (replies, c)) :
    ∃ e rest, Filled d e count (scalarFields d.forceDefaults pushes ++ fields) ∧
      e.run calls = .ok (rest, c) := by
  induction pushes generalizing d' fields replies with
  | nil => exact ⟨d', replies, hfilled, h⟩
  | cons p pushes ih =>
    obtain ⟨reply, e, rest, hpush, hrest, -⟩ := run_cons_eq_ok_iff.mp h
    rw [scalarFields_cons, List.append_assoc]
    exact ih (hfilled.push hpush) hrest

/-- Closing an object adds what is missing of it. -/
private theorem Filled.close (hfilled : Filled d d' count fields)
    (h : d'.perform .endObject = .ok (reply, e)) : d.Added e fields := by
  cases step_of_perform h with | endObject hphase hclose => ?_
  cases hfilled.phase.symm.trans hphase
  obtain ⟨p, hpad, -, -, hlength, vtable, hvtable, closed, hlink, -, rfl⟩ :=
    closeObject_eq_ok_iff.mp hclose
  obtain ⟨-, hused, -, -⟩ := hfilled.openObject.padded hpad
  obtain ⟨hvtables, hreused⟩ := vtables_of_pad hpad
  rw [hused, Nat.add_sub_cancel_left] at hlength
  cases (hfilled.openObject.vtableBytes_eq hpad hlength).symm.trans hvtable
  have hlinked := used_of_linkVTable hlink
  rw [Added, ← hused, ← hfilled.vtables, ← hfilled.vtablesReused, ← hvtables, ← hreused]
  exact hlinked

/-- **What an object adds**, with a vtable of its own or with a shared one. -/
theorem growth_of_run {pushes : List ScalarPush} {replies : List Reply}
    (h : d.run (objectCalls count pushes) = .ok (replies, e)) :
    d.Added e (scalarFields d.forceDefaults pushes) ∧
      ((scalarFields d.forceDefaults pushes).map (·.slot)).Nodup := by
  obtain ⟨reply, d', rest, hstart, hrest, -⟩ := run_cons_eq_ok_iff.mp h
  obtain ⟨c, last, hfilled, hend⟩ := (filled_of_startObject hstart).run hrest
  obtain ⟨reply', e', rest', hclose, hnil, -⟩ := run_cons_eq_ok_iff.mp hend
  cases hnil
  rw [List.append_nil] at hfilled
  exact ⟨hfilled.close hclose, hfilled.openObject.laidOut.slots_nodup⟩

end Object

/-- **Two objects of one shape in a row**, the first with a vtable of its own that the second
shares. The second adds no more than the first, and less but in one case. -/
theorem adds_less {d d₁ d₂ : Draft} {fields fields' : List Field}
    (hnodup : (fields.map (·.slot)).Nodup) (hfirst : d.Added d₁ fields)
    (hsecond : d₁.Added d₂ fields') (hshape : shape fields' = shape fields)
    (hnew : d₁.vtables.length = d.vtables.length + 1)
    (hshared : d₂.vtablesReused = d₁.vtablesReused + 1) :
    ∃ first second, d₁.used = d.used + first ∧ d₂.used = d₁.used + second ∧ second ≤ first ∧
      (second < first ↔ ¬ (d.used % 8 = 0 ∧ shape fields = [(0, 8)])) := by
  have hused₁ : d₁.used
      = d.used + padding d.used 8 + objectLength fields + (vtableOf fields).length := by
    rcases hfirst with ⟨hvtables, -, -⟩ | ⟨-, -, hused⟩
    · rw [hvtables] at hnew
      omega
    · exact hused
  have hused₂ : d₂.used = d₁.used + padding d₁.used 8 + objectLength fields := by
    rcases hsecond with ⟨-, -, hused⟩ | ⟨-, hreused, -⟩
    · rwa [objectLength_eq_of_shape_eq hshape] at hused
    · omega
  -- The first object starts on a boundary, so the padding of the second depends on lengths only.
  have hbehind : padding d₁.used 8
      = padding (objectLength fields + (vtableOf fields).length) 8 := by
    rw [hused₁, Nat.add_assoc, Nat.add_comm]
    exact padding_add_left (padding_spec d.used (by decide))
  obtain ⟨hle, heq⟩ := padding_behind_le hnodup
  have hstart : padding d.used 8 = 0 ↔ d.used % 8 = 0 := padding_eq_zero_iff (by decide)
  refine ⟨padding d.used 8 + objectLength fields + (vtableOf fields).length,
    padding d₁.used 8 + objectLength fields, by omega, by omega, by omega, ?_⟩
  rw [← heq, ← hstart]
  omega

end Draft

namespace Builder

/-- **Sharing a vtable saves space, but for one shape.** After any calls, let an object of scalars
be written with a new vtable, and then one of the same shape that shares it. The second adds no more
to what is written than the first. It adds less, unless eight bytes in slot 0 are all that is
written of either object and the first one starts without padding; then it adds as much. -/
theorem sharing_saves {options : BuilderOptions} {calls : List Call} {replies : List Reply}
    {b b₁ b₂ : Builder} {count count' : UInt16} {pushes pushes' : List ScalarPush}
    {replies₁ replies₂ : List Reply}
    (hrun : runCalls calls (withOptions options) = .ok (replies, b))
    (hfirst : runCalls (objectCalls count pushes) b = .ok (replies₁, b₁))
    (hsecond : runCalls (objectCalls count' pushes') b₁ = .ok (replies₂, b₂))
    (hshape : shape (scalarFields options.forceDefaults pushes')
      = shape (scalarFields options.forceDefaults pushes))
    (hnew : b₁.vtableCount = b.vtableCount + 1)
    (hshared : b₂.vtablesReused = b₁.vtablesReused + 1) :
    ∃ first second, b₁.used = b.used + first ∧ b₂.used = b₁.used + second ∧ second ≤ first ∧
      (second < first ↔
        ¬ (b.used % 8 = 0 ∧ shape (scalarFields options.forceDefaults pushes) = [(0, 8)])) := by
  have hempty : (withOptions options).draft.VTablesWritten := by
    rw [draft_withOptions]
    exact Draft.vtablesWritten_empty _
  have hdraft := draft_of_run hempty hrun
  have hvtables := hempty.run hdraft
  have hdraft₁ := draft_of_run hvtables hfirst
  have hdraft₂ := draft_of_run (hvtables.run hdraft₁) hsecond
  have hforce : b.draft.forceDefaults = options.forceDefaults := Draft.forceDefaults_of_run hdraft
  have hforce₁ : b₁.draft.forceDefaults = options.forceDefaults :=
    (Draft.forceDefaults_of_run hdraft₁).trans hforce
  obtain ⟨hadded, hnodup⟩ := Draft.growth_of_run hdraft₁
  obtain ⟨hadded', -⟩ := Draft.growth_of_run hdraft₂
  rw [hforce] at hadded hnodup
  rw [hforce₁] at hadded'
  have hless := Draft.adds_less hnodup hadded hadded' hshape hnew hshared
  rwa [used_draft, used_draft, used_draft] at hless

/-- A number of four bytes in slot 0. -/
def fourBytes (value : UInt32) : ScalarPush := ⟨0, .u32, value, (0 : UInt32)⟩

/-- Two objects with one field of four bytes: the second one shares the vtable and adds fewer
bytes. -/
theorem sharing_saves_fourBytes :
    ∃ b₁ b₂ replies₁ replies₂,
      runCalls (objectCalls 2 [fourBytes 1]) (withOptions ⟨16, false⟩) = .ok (replies₁, b₁) ∧
      runCalls (objectCalls 1 [fourBytes 2]) b₁ = .ok (replies₂, b₂) ∧
      b₁.used = 14 ∧ b₂.used < 14 + 14 := by
  obtain ⟨⟨replies₁, b₁⟩, hfirst, htest⟩ := exists_ok_of_any
    (x := runCalls (objectCalls 2 [fourBytes 1]) (withOptions ⟨16, false⟩))
    (p := fun r => r.2.vtableCount == 1 && r.2.used == 14 &&
      (runCalls (objectCalls 1 [fourBytes 2]) r.2).toOption.any
        (·.2.vtablesReused == r.2.vtablesReused + 1)) (by decide +kernel)
  simp only [Bool.and_eq_true, beq_iff_eq] at htest
  obtain ⟨⟨hnew, hused⟩, htest⟩ := htest
  obtain ⟨⟨replies₂, b₂⟩, hsecond, hshared⟩ := exists_ok_of_any htest
  have hrun : runCalls [] (withOptions ⟨16, false⟩) = .ok ([], withOptions ⟨16, false⟩) := rfl
  obtain ⟨first, second, hused₁, hused₂, -, hless⟩ :=
    sharing_saves hrun hfirst hsecond rfl hnew (eq_of_beq hshared)
  have hsaves : second < first := hless.mpr (by decide)
  change b₁.used = 0 + first at hused₁
  exact ⟨b₁, b₂, replies₁, replies₂, hfirst, hsecond, hused, by omega⟩

/-- A number of eight bytes in slot 0. -/
def eightBytes (value : Int64) : ScalarPush := ⟨0, .i64, value, (0 : Int64)⟩

/-- Where nothing was written before, the second of two such objects adds 18 bytes, as the first
one does with its vtable. -/
theorem adds_as_much_eightBytes :
    ∃ b₁ b₂ replies₁ replies₂,
      runCalls (objectCalls 1 [eightBytes 5]) (withOptions ⟨16, false⟩) = .ok (replies₁, b₁) ∧
      runCalls (objectCalls 1 [eightBytes 5]) b₁ = .ok (replies₂, b₂) ∧
      b₁.vtableCount = (withOptions ⟨16, false⟩).vtableCount + 1 ∧
      b₂.vtablesReused = b₁.vtablesReused + 1 ∧
      ¬ b₂.used - b₁.used < b₁.used - (withOptions ⟨16, false⟩).used := by
  obtain ⟨⟨replies₁, b₁⟩, hfirst, htest⟩ := exists_ok_of_any
    (x := runCalls (objectCalls 1 [eightBytes 5]) (withOptions ⟨16, false⟩))
    (p := fun r => r.2.vtableCount == 1 && r.2.used == 18 &&
      (runCalls (objectCalls 1 [eightBytes 5]) r.2).toOption.any
        fun r' => r'.2.vtablesReused == r.2.vtablesReused + 1 && r'.2.used == 36)
    (by decide +kernel)
  simp only [Bool.and_eq_true, beq_iff_eq] at htest
  obtain ⟨⟨hnew, hused₁⟩, htest⟩ := htest
  obtain ⟨⟨replies₂, b₂⟩, hsecond, htest⟩ := exists_ok_of_any htest
  simp only [Bool.and_eq_true, beq_iff_eq] at htest
  obtain ⟨hshared, hused₂⟩ := htest
  refine ⟨b₁, b₂, replies₁, replies₂, hfirst, hsecond, hnew, hshared, ?_⟩
  rw [hused₂, hused₁]
  decide

end Builder

end EnvelopeWire
