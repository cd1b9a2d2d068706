import EnvelopeWire.Proofs.Builder.Writes

/-!
# Writing records

A record is an object whose slots are written one after the other, each of them a scalar that may be
left out when it equals its default, a reference, or nothing. What its fields are follows from the
list of its slots, and so does what a reader finds in each of them.

* `recordFields`: the fields that the slots of a record leave.
* `writes_record`: writing a record goes through, and the account holds its fields.
* `valueIn_recordFields`: in each slot of a record stands what was written there.
-/

namespace EnvelopeWire

/-! ### Slots -/

/-- What a record has in a slot. -/
inductive RecordSlot
  /-- A scalar, which is left out when it equals its default and defaults are not forced. -/
  | scalar (type : ScalarType) (value default : type.Value)
  | reference (target : Offset)
  | absent

namespace RecordSlot

/-- A reference where there is a target. -/
def ofReference : Option Offset → RecordSlot
  | some target => reference target
  | none => absent

/-- Writes a slot of the open object. -/
def push (slot : UInt16) : RecordSlot → Build Unit
  | scalar type value default => Build.pushSlot type slot value default
  | reference target => Build.pushSlotOffset slot target
  | absent => pure ()

/-- What is written in the slot. -/
def value (forceDefaults : Bool) : RecordSlot → Option FieldValue
  | scalar type value default =>
    if type.agrees value default && !forceDefaults then none else some (.scalar type value)
  | reference target => some (.reference target)
  | absent => none

/-- A reference leads to something that was written. -/
def Known (a : Account) : RecordSlot → Prop
  | reference target => a.Knows target
  | scalar _ _ _ | absent => True

/-- A reference is never elided, be defaults forced or not. -/
theorem value_ofReference (forceDefaults : Bool) (target : Option Offset) :
    (ofReference target).value forceDefaults = target.map .reference := by
  cases target <;> rfl

end RecordSlot

/-- The fields that the slots of a record leave, last one first. -/
def recordFields (forceDefaults : Bool) : List (UInt16 × RecordSlot) → List Field
  | [] => []
  | (slot, s) :: slots => recordFields forceDefaults slots
    ++ ((s.value forceDefaults).map fun value => { slot := slot, value := value }).toList

section Fields

variable {forceDefaults : Bool} {slot : UInt16} {s : RecordSlot}
  {slots : List (UInt16 × RecordSlot)}

/-- A record has at most one field for each slot that is given. -/
theorem length_recordFields (forceDefaults : Bool) (slots : List (UInt16 × RecordSlot)) :
    (recordFields forceDefaults slots).length ≤ slots.length := by
  induction slots with
  | nil => exact Nat.le_refl 0
  | cons head slots ih =>
    rw [recordFields, List.length_append, List.length_cons]
    refine Nat.add_le_add ih ?_
    cases head.2.value forceDefaults <;> simp

/-- Slots that are given later stand in front. -/
theorem recordFields_append (forceDefaults : Bool) (slots more : List (UInt16 × RecordSlot)) :
    recordFields forceDefaults (slots ++ more)
      = recordFields forceDefaults more ++ recordFields forceDefaults slots := by
  induction slots with
  | nil => exact (List.append_nil _).symm
  | cons head slots ih => rw [List.cons_append, recordFields, recordFields, ih, List.append_assoc]

/-- Only the slots of a record have fields. -/
private theorem slot_mem_of_mem_recordFields {f : Field}
    (hf : f ∈ recordFields forceDefaults slots) :
    f.slot ∈ slots.map Prod.fst := by
  induction slots with
  | nil => cases hf
  | cons head slots ih =>
    rw [List.map_cons]
    rcases List.mem_append.mp hf with hrest | hhead
    · exact List.mem_cons_of_mem _ (ih hrest)
    · obtain ⟨value, -, rfl⟩ := Option.map_eq_some_iff.mp (Option.mem_toList.mp hhead)
      exact List.mem_cons_self

/-- The vtable of a record covers as many slots as it may have. -/
theorem covered_recordFields_le {count : Nat} (h : ∀ s ∈ slots, s.1.toNat < count) :
    covered (recordFields forceDefaults slots) ≤ count := by
  refine covered_le fun f hf => ?_
  obtain ⟨s, hs, hslot⟩ := List.mem_map.mp (slot_mem_of_mem_recordFields hf)
  rw [← hslot]
  exact h s hs

/-- A value is looked for in the front fields first. -/
private theorem valueIn_append (fields more : List Field) (slot : UInt16) :
    valueIn (fields ++ more) slot = (valueIn fields slot).or (valueIn more slot) := by
  rw [valueIn, List.find?_append, Option.map_or]
  rfl

/-- A slot that the record does not have is absent. -/
theorem valueIn_recordFields_of_notMem (h : slot ∉ slots.map Prod.fst) :
    valueIn (recordFields forceDefaults slots) slot = none := by
  have hnone : findField slot (recordFields forceDefaults slots) = none := by
    refine findField_eq_none_iff.mpr fun f hf heq => h ?_
    rw [← heq]
    exact slot_mem_of_mem_recordFields hf
  rw [valueIn_eq, hnone]
  rfl

/-- **In each slot of a record stands what was written there.** -/
theorem valueIn_recordFields (hnodup : (slots.map Prod.fst).Nodup) (h : (slot, s) ∈ slots) :
    valueIn (recordFields forceDefaults slots) slot = s.value forceDefaults := by
  induction slots with
  | nil => cases h
  | cons head slots ih =>
    obtain ⟨hfresh, hrest⟩ := List.nodup_cons.mp hnodup
    rw [recordFields, valueIn_append]
    -- The slot is the one at hand, which none of the others is, or one of the others.
    rcases List.mem_cons.mp h with rfl | hmem
    · rw [valueIn_recordFields_of_notMem hfresh, Option.none_or]
      cases s.value forceDefaults <;> simp [valueIn]
    · have hne : head.1 ≠ slot := by
        rintro rfl
        exact hfresh (List.mem_map.mpr ⟨_, hmem, rfl⟩)
      have hhead : valueIn ((head.2.value forceDefaults).map fun value =>
          ({ slot := head.1, value := value } : Field)).toList slot = none := by
        cases head.2.value forceDefaults <;> simp [valueIn, hne]
      rw [ih hrest hmem, hhead, Option.or_none]

end Fields

/-- A few fields make a short object. -/
theorem objectLength_le (fields : List Field) : objectLength fields ≤ 16 * fields.length + 8 := by
  have hextent : extent fields ≤ 16 * fields.length := by
    induction fields with
    | nil => exact Nat.zero_le _
    | cons f fields ih =>
      have hpadding := Draft.padding_le_alignment (extent fields + f.value.width) f.value.width
      have hwidth : f.value.width ≤ 8 := by
        cases f.value with
        | scalar type value => exact type.width_le
        | reference target => simp only [FieldValue.width]; decide
      rw [extent, List.length_cons]
      omega
  have hpadding := Draft.padding_le_alignment (extent fields + 4) 4
  rw [objectLength]
  omega

/-! ### Writing -/

namespace Account

/-- The account with more fields in the open object. -/
def pushAll (a : Account) (fields : List Field) : Account := { a with fields := fields ++ a.fields }

/-- Fields may be pushed in two goes. -/
theorem pushAll_pushAll (a : Account) (fields more : List Field) :
    (a.pushAll fields).pushAll more = a.pushAll (more ++ fields) := by
  rw [pushAll, pushAll, pushAll, List.append_assoc]

/-- A number that is pushed is noted as the slot of a record is. -/
theorem note_pushSlot (a : Account) (forceDefaults : Bool) (slot : UInt16) {type : ScalarType}
    (value default : type.Value) :
    a.note forceDefaults (.pushSlot type slot value default) .done
      = a.pushAll (recordFields forceDefaults [(slot, .scalar type value default)]) := by
  rw [note, recordFields, RecordSlot.value]
  split <;> rfl

/-- All that `a` knows is known to `a'` too. -/
def Extends (a' a : Account) : Prop := a.items ⊆ a'.items

theorem Extends.refl (a : Account) : a.Extends a := List.Subset.refl _

theorem Extends.trans {a a' a'' : Account} (h : a'.Extends a) (h' : a''.Extends a') :
    a''.Extends a := List.Subset.trans h h'

/-- An account that is told of one more item tells of all the others. -/
theorem extends_add (a : Account) (item : Item) (offset : Offset) :
    (a.add item (.place offset)).Extends a := List.subset_cons_self _ _

end Account

/-- Writes an object with the given slots, out of `count`. -/
def writeRecord (count : UInt16) (slots : List (UInt16 × RecordSlot)) : Build Offset := do
  Build.startObject count
  slots.forM fun s => s.2.push s.1
  Build.endObject

/-- The slots of a record that can be written: they are few, they are different and in range, and
references lead to something that was written. -/
structure SlotsFit (a : Account) (count : UInt16) (slots : List (UInt16 × RecordSlot)) : Prop where
  length_le : slots.length ≤ 4
  nodup : (slots.map Prod.fst).Nodup
  lt : ∀ s ∈ slots, s.1 < count
  known : ∀ s ∈ slots, s.2.Known a

section Steps

variable {forceDefaults : Bool} {a : Account} {count : UInt16}

/-- One slot of a record. -/
private theorem writes_slot {slot : UInt16} {s : RecordSlot} (hslot : slot < count)
    (hfresh : ∀ f ∈ a.fields, f.slot ≠ slot) (hknown : s.Known a) :
    Writes forceDefaults a (.building count) (s.push slot) 16
      (fun _ a' stage => stage = .building count ∧
        a' = a.pushAll (recordFields forceDefaults [(slot, s)])) := by
  cases s with
  | scalar type value default =>
    refine (writes_pushSlot hslot hfresh type value default).mono (Nat.le_refl _) fun _ a' _ h => ?_
    obtain ⟨rfl, rfl⟩ := h
    exact ⟨rfl, a.note_pushSlot forceDefaults slot value default⟩
  | reference target =>
    refine (writes_pushSlotOffset hslot hfresh hknown).mono (by decide) fun _ a' _ h => ?_
    obtain ⟨rfl, rfl⟩ := h
    exact ⟨rfl, rfl⟩
  | absent => exact .of_pure_cost () ⟨rfl, rfl⟩

/-- The slots of a record, by induction on the slots: each of them stays fresh until its turn. -/
private theorem writes_slots {slots : List (UInt16 × RecordSlot)} (h : SlotsFit a count slots)
    (hfresh : ∀ f ∈ a.fields, f.slot ∉ slots.map Prod.fst) :
    Writes forceDefaults a (.building count) (slots.forM fun s => s.2.push s.1)
      (16 * slots.length)
      (fun _ a' stage => stage = .building count ∧
        a' = a.pushAll (recordFields forceDefaults slots)) := by
  -- The account grows with each slot; the slots to come stay free in it, since all are different.
  induction slots generalizing a with
  | nil => exact .of_pure_cost () ⟨rfl, rfl⟩
  | cons head slots ih =>
    obtain ⟨hhead, hnodup⟩ := List.nodup_cons.mp h.nodup
    obtain ⟨hlt, hlts⟩ := List.forall_mem_cons.mp h.lt
    obtain ⟨hknown, hknowns⟩ := List.forall_mem_cons.mp h.known
    have hcost : 16 * (head :: slots).length = 16 + 16 * slots.length := by
      rw [List.length_cons]
      omega
    have hslot : ∀ f ∈ a.fields, f.slot ≠ head.1 := fun f hf heq =>
      hfresh f hf (by rw [heq]; exact List.mem_cons_self)
    rw [hcost]
    refine Writes.bind (writes_slot hlt hslot hknown) fun _ a' stage h' => ?_
    obtain ⟨rfl, rfl⟩ := h'
    have hfit : SlotsFit (a.pushAll (recordFields forceDefaults [head])) count slots :=
      ⟨Nat.le_of_succ_le h.length_le, hnodup, hlts, hknowns⟩
    refine Writes.mono (ih hfit fun f hf => ?_) (Nat.le_refl _) fun _ a' _ h' => ?_
    · rcases List.mem_append.mp hf with hnew | hold
      · have hmem := slot_mem_of_mem_recordFields hnew
        rw [List.mem_singleton.mp hmem]
        exact hhead
      · exact fun hmem => hfresh f hold (List.mem_cons_of_mem _ hmem)
    · exact ⟨h'.1, h'.2.trans (Account.pushAll_pushAll _ _ _)⟩

/-- **A record is written** with the fields that its slots leave. -/
theorem writes_record {slots : List (UInt16 × RecordSlot)} (hcount : count.toNat ≤ maxFields)
    (h : SlotsFit a count slots) :
    Writes forceDefaults a .idle (writeRecord count slots)
      (8 + (16 * slots.length + (12 + 2 * count.toNat)))
      (fun offset a' stage => stage = .idle ∧ a'.Extends a ∧
        (offset, .object (recordFields forceDefaults slots)) ∈ a'.items) := by
  refine (writes_startObject hcount).bind fun _ a₁ stage₁ h₁ => ?_
  obtain ⟨rfl, rfl⟩ := h₁
  refine Writes.bind (writes_slots ⟨h.length_le, h.nodup, h.lt, h.known⟩ (List.forall_mem_nil _))
    fun _ a₂ stage₂ h₂ => ?_
  obtain ⟨rfl, rfl⟩ := h₂
  have hpushed : (Account.pushAll { a with fields := [] }
      (recordFields forceDefaults slots)).fields = recordFields forceDefaults slots :=
    List.append_nil _
  have hobject : objectLength (recordFields forceDefaults slots) ≤ 65535 := by
    have hslots := h.length_le
    have hfields := length_recordFields forceDefaults slots
    have hle := objectLength_le (recordFields forceDefaults slots)
    omega
  refine (writes_endObject (by rwa [hpushed])).mono (Nat.le_refl _) fun offset a₃ stage₃ h₃ => ?_
  obtain ⟨rfl, rfl⟩ := h₃
  rw [hpushed]
  exact ⟨rfl, Account.extends_add _ _ _, List.mem_cons_self⟩

end Steps

end EnvelopeWire
