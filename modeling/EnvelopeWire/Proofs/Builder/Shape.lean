import EnvelopeWire.Proofs.Builder.VTables

/-!
# The shape of an object

The shape of an object is the sequence of its fields, each by its slot and the number of bytes that
it takes. Objects start on a multiple of eight, so the shape alone decides how long an object is and
where in it each field lies, and with that its vtable: what the fields hold, how many slots were
asked for and what is written around the object does not come into it.

* `extent_le_of_sublist`: an object with fewer fields is no longer.
* `vtableOf_eq_of_shape_eq`: objects of one shape have one vtable.
* `Account.Shares.vtable_eq`: the vtable that a reader finds is the one that was written.
* `Builder.vtable_eq_of_shape_eq`: objects of one shape share their vtable.
-/

namespace EnvelopeWire

/-- The slots of the fields with the number of bytes that each takes, last one first. -/
def shape (fields : List Field) : List (UInt16 × Nat) :=
  fields.map fun f => (f.slot, f.value.width)

/-! ### Lengths -/

/-- What is put on a boundary behind less ends no later. -/
private theorem add_padding_mono {m n width : Nat} (hwidth : 0 < width) (h : m ≤ n) :
    m + padding (m + width) width + width ≤ n + padding (n + width) width + width := by
  have hend := padding_spec (n + width) hwidth
  -- The boundary behind the greater size is one behind the smaller size, if not the first.
  have hsum : m + width + (n - m + padding (n + width) width)
      = n + width + padding (n + width) width := by omega
  have hle := padding_le (hsum ▸ hend)
  omega

/-- **An object with fewer fields is no longer**, though there may be more padding in it. -/
theorem extent_le_of_sublist {fields fields' : List Field}
    (h : (shape fields).Sublist (shape fields')) : extent fields ≤ extent fields' := by
  induction fields' generalizing fields with
  | nil =>
    obtain rfl := List.map_eq_nil_iff.mp (List.sublist_nil.mp h)
    exact Nat.le_refl 0
  | cons f' fields' ih =>
    rcases List.sublist_cons_iff.mp h with hskip | ⟨rest, heq, hrest⟩
    · have hle := ih hskip
      rw [extent]
      omega
    · obtain ⟨f, fields, rfl, hf, rfl⟩ := List.map_eq_cons_iff.mp heq
      have hwidth : f.value.width = f'.value.width := congrArg Prod.snd hf
      rw [extent, extent, hwidth]
      exact add_padding_mono f'.value.width_pos (ih hrest)

/-- An object with fewer of the same fields is no longer. -/
theorem objectLength_le_of_sublist {fields fields' : List Field}
    (h : (shape fields).Sublist (shape fields')) : objectLength fields ≤ objectLength fields' :=
  add_padding_mono (by decide) (extent_le_of_sublist h)

/-! ### Vtables -/

section Congruence

variable {fields fields' : List Field}

/-- Equal shapes take equal room. -/
private theorem extent_eq_of_shape_eq (h : shape fields = shape fields') :
    extent fields = extent fields' :=
  Nat.le_antisymm (extent_le_of_sublist (h ▸ List.Sublist.refl _))
    (extent_le_of_sublist (h ▸ List.Sublist.refl _))

/-- Equal shapes have equal lengths. -/
theorem objectLength_eq_of_shape_eq (h : shape fields = shape fields') :
    objectLength fields = objectLength fields' := by
  rw [objectLength, objectLength, extent_eq_of_shape_eq h]

/-- Objects of one shape have their fields at the same places. -/
private theorem place_eq_of_shape_eq (h : shape fields = shape fields') (slot : UInt16) :
    (findField slot fields).map Prod.snd = (findField slot fields').map Prod.snd := by
  induction fields generalizing fields' with
  | nil =>
    obtain rfl := List.map_eq_nil_iff.mp h.symm
    rfl
  | cons f fields ih =>
    obtain ⟨f', fields', rfl, hf, hrest⟩ := List.map_eq_cons_iff.mp h.symm
    have hslot : f'.slot = f.slot := congrArg Prod.fst hf
    rw [findField, findField, hslot]
    split
    · exact congrArg some (extent_eq_of_shape_eq h)
    · exact ih hrest.symm

/-- Equal shapes have equally many entries. -/
private theorem covered_eq_of_shape_eq (h : shape fields = shape fields') :
    covered fields = covered fields' := by
  induction fields generalizing fields' with
  | nil =>
    obtain rfl := List.map_eq_nil_iff.mp h.symm
    rfl
  | cons f fields ih =>
    obtain ⟨f', fields', rfl, hf, hrest⟩ := List.map_eq_cons_iff.mp h.symm
    have hslot : f'.slot = f.slot := congrArg Prod.fst hf
    rw [covered, covered, hslot, ih hrest.symm]

/-- Equal shapes have equal entries, slot by slot. -/
private theorem vtableEntry_eq_of_shape_eq (h : shape fields = shape fields') (length : Nat)
    (slot : UInt16) : vtableEntry length fields slot = vtableEntry length fields' slot := by
  have hplace := congrArg (Option.map fun place => UInt16.ofNat (length - place))
    (place_eq_of_shape_eq h slot)
  rwa [Option.map_map, Option.map_map] at hplace

/-- **Objects of one shape have one vtable.** -/
theorem vtableOf_eq_of_shape_eq (h : shape fields = shape fields') :
    vtableOf fields = vtableOf fields' := by
  have hentries : vtableEntries fields = vtableEntries fields' := by
    rw [vtableEntries, vtableEntries, covered_eq_of_shape_eq h, objectLength_eq_of_shape_eq h]
    exact List.map_congr_left fun slot _ => by rw [vtableEntry_eq_of_shape_eq h]
  rw [vtableOf, vtableOf, covered_eq_of_shape_eq h, objectLength_eq_of_shape_eq h, hentries]

end Congruence

/-! ### Where the vtables are read -/

namespace Account.Shares

variable {a : Account} {closed : Nat} {d : Draft} {offset : Offset} {fields : List Field}

/-- **The vtable that a reader finds** for an object is its own, at one of the places where a
vtable was written. -/
theorem vtable_eq (h : a.Shares closed d) (hd : a.Describes d)
    (hmem : (offset, .object fields) ∈ a.items) :
    ∃ place ∈ d.vtables, d.written.vtableFrom place = vtableOf fields ∧
      Table.vtable ⟨d.written, d.written.length - offset.value⟩
        = .ok ⟨vtableOf fields, d.written.length - place⟩ := by
  obtain ⟨place, hplace, hvtable, hreference⟩ := h.linked offset fields hmem
  obtain ⟨start, hoffset, hstands⟩ := hd.items offset _ hmem
  obtain ⟨position, hread⟩ := hstands.vtable_eq hd.used_le
  rw [← hoffset] at hread
  refine ⟨place, hplace, hvtable.vtableFrom_eq hstands.laidOut.covered_le, ?_⟩
  have hleads := hreference.vtablePlace_eq hd.used_le hvtable.place_le
  have hin := hreference.place_le
  have hposition : position = d.written.vtableAt (d.written.length - offset.value) :=
    congrArg VTable.position (Table.vtable_eq_ok_iff_isTable.mp hread).2
  rw [Bytes.vtablePlace] at hleads
  rw [hread, hposition, Bytes.vtableAt]
  have hsub : ((d.written.length - offset.value : Nat) : Int)
      - d.written.int32At (d.written.length - offset.value) = (d.written.length - place : Nat) := by
    have hvtableIn := hvtable.place_le
    omega
  rw [hsub, Int.toNat_natCast]

/-- Objects with equal vtables share one. -/
private theorem vtable_eq_of_vtableOf_eq (h : a.Shares closed d) (hd : a.Describes d)
    (hmem : (offset, .object fields) ∈ a.items) {offset' : Offset} {fields' : List Field}
    (hmem' : (offset', .object fields') ∈ a.items) (heq : vtableOf fields = vtableOf fields') :
    Table.vtable ⟨d.written, d.written.length - offset'.value⟩
      = Table.vtable ⟨d.written, d.written.length - offset.value⟩ := by
  obtain ⟨place, hplace, hreads, hvtable⟩ := h.vtable_eq hd hmem
  obtain ⟨place', hplace', hreads', hvtable'⟩ := h.vtable_eq hd hmem'
  have hnodup : (d.vtables.map d.written.vtableFrom).Nodup := by
    rw [h.vtables]
    exact nodup_vtablesOf a.items
  have hsame : place = place' := by
    refine List.inj_on_of_nodup_map hnodup hplace hplace' ?_
    rw [hreads, hreads', heq]
  rw [hvtable, hvtable', hsame, heq]

end Account.Shares

namespace Builder

/-- **Objects of one shape share their vtable.** After any calls, two objects whose fields were
pushed in the same order into the same slots, with as many bytes each, read the same vtable at the
same place: they are equally long, and each field lies equally far from the start of its object. -/
theorem vtable_eq_of_shape_eq {options : BuilderOptions} {calls : List Call} {replies : List Reply}
    {b : Builder} {a : Account} {offset offset' : Offset} {fields fields' : List Field}
    (hrun : runCalls calls (withOptions options) = .ok (replies, b))
    (haccount : Account.empty.afterCalls options.forceDefaults calls replies = a)
    (hmem : (offset, .object fields) ∈ a.items) (hmem' : (offset', .object fields') ∈ a.items)
    (hshape : shape fields = shape fields') :
    (∃ v, Table.vtable ⟨b.written, b.written.length - offset.value⟩ = .ok v ∧
        Table.vtable ⟨b.written, b.written.length - offset'.value⟩ = .ok v ∧
        v.objectLength = objectLength fields ∧
        ∀ slot, v.fieldOffset slot = (vtableEntry (objectLength fields) fields slot).getD 0) ∧
      ∀ op data after, Build.finishedData op b = .ok (data, after) → data = b.written := by
  have hdraft := draft_of_run (by rw [draft_withOptions]; exact Draft.vtablesWritten_empty _) hrun
  rw [draft_withOptions] at hdraft
  have hdescribes : a.Describes b.draft := by
    rw [← haccount]
    exact (Account.describes_empty _).run hdraft
  have hshares : a.Shares (calls.foldl Call.countClosed 0) b.draft := by
    rw [← haccount]
    exact (Account.Shares.empty _).run (Account.describes_empty _) hdraft
  obtain ⟨place, -, -, hvtable⟩ := hshares.vtable_eq hdescribes hmem
  have hvtable' := hshares.vtable_eq_of_vtableOf_eq hdescribes hmem hmem'
    (vtableOf_eq_of_shape_eq hshape)
  obtain ⟨start, -, hstands⟩ := hdescribes.items offset _ hmem
  refine ⟨⟨_, hvtable, hvtable'.trans hvtable, ?_, ?_⟩, fun op data after hdata => ?_⟩
  · exact objectLength_vtableOf _ hstands.length_le
  · exact fieldOffset_vtableOf _
  · obtain ⟨_, -, heq⟩ := bind_eq_ok_iff.mp hdata
    cases heq
    rfl

/-- Two objects with a byte in slot 0 and eight bytes in slot 2, out of three slots and out of nine,
with a string of an odd length and an object of another shape between them. -/
def twinCalls : List Call :=
  [.startObject 3, .pushSlot .u8 0 (9 : UInt8) (0 : UInt8), .pushSlot .u64 2 (7 : UInt64)
      (0 : UInt64), .endObject, .createString "abcde", .startObject 1,
    .pushSlot .u16 0 (1 : UInt16) (0 : UInt16), .endObject, .startObject 9,
    .pushSlot .i8 0 (1 : Int8) (0 : Int8), .pushSlot .u64 2 (8 : UInt64) (0 : UInt64), .endObject,
    .finish ⟨76⟩]

/-- The replies to `twinCalls`. -/
def twinReplies : List Reply :=
  [.done, .done, .done, .place ⟨20⟩, .place ⟨40⟩, .done, .done, .place ⟨48⟩, .done, .done, .done,
    .place ⟨76⟩, .done]

/-- Two objects of one shape with other values and another vtable between them. -/
theorem vtable_eq_of_shape_eq_twins :
    ∃ b data v, runCalls twinCalls (withOptions ⟨16, false⟩) = .ok (twinReplies, b) ∧
      Build.finishedData .finishedData b = .ok (data, b) ∧
      Table.vtable ⟨data, data.length - 20⟩ = .ok v ∧
      Table.vtable ⟨data, data.length - 76⟩ = .ok v ∧ v.objectLength = 20 ∧
      v.fieldOffset 0 = 19 ∧ v.fieldOffset 2 = 4 := by
  obtain ⟨⟨replies, b⟩, hrun, hshown⟩ :=
    exists_ok_of_any (p := fun r => r.1 == twinReplies && r.2.phase == .finished)
      (x := runCalls twinCalls (withOptions ⟨16, false⟩)) (by decide +kernel)
  obtain ⟨hreplies, hphase⟩ := (Bool.and_eq_true _ _).mp hshown
  obtain rfl : replies = twinReplies := eq_of_beq hreplies
  have hdata : Build.finishedData .finishedData b = .ok (b.written, b) := by
    rw [Build.finishedData, (Phase.checkFinished_eq_ok_iff (u := ())).mpr (eq_of_beq hphase)]
    rfl
  obtain ⟨⟨v, hfirst, hlast, hlength, hfields⟩, -⟩ :=
    vtable_eq_of_shape_eq hrun rfl
      (.tail _ (.tail _ (.tail _ (.head _)))) (.head _) rfl
  exact ⟨b, b.written, v, hrun, hdata, hfirst, hlast, hlength, hfields 0, hfields 2⟩

end Builder

end EnvelopeWire
