import EnvelopeWire.Proofs.Builder.Alignment
import EnvelopeWire.Proofs.Bytes.Regions

/-!
# The regions of a finished buffer

A finished buffer is the reference to its root, the vtables, the objects, the strings and the byte
vectors that were written since the last reset, and zeros. Each of these has bytes of its own: none
overlaps another one, whatever order they were created in, and a vtable that objects share is there
once. An object is made up likewise of the reference to its vtable, its fields and zeros, and the
vtable that is read for it says where they are and how long the whole is. So there is no byte in the
buffer that was not written for something, or else is zero.

* `Stacked.tiled`: the regions of all that was written.
* `tiled_objectBytes`: the parts of an object.
* `objectParts_vtableOf`: they are where the vtable of the object says.
* `Builder.tiled_of_finish`: the regions of a finished buffer, and in them those of its objects.
-/

namespace EnvelopeWire

open Bytes

/-! ### Regions of what is written -/

/-- The number of bytes of what an offset stands for. -/
def Item.length : Item → Nat
  | object fields => objectLength fields
  | string text => (utf8 text).length + 5
  | vector bytes => bytes.length + 4

/-- The region of what an offset stands for. -/
def itemRegion (entry : Offset × Item) : Region := ⟨entry.1.value, entry.2.length⟩

/-- The region of the vtable that starts `place` bytes before the end of `w`. -/
def vtableRegion (w : Bytes) (place : Nat) : Region := ⟨place, (w.vtableFrom place).length⟩

namespace Bytes

variable {w w' bytes : Bytes} {regions : List Region} {boundary : Nat}

/-- What is put on a boundary has a region of its own. -/
private theorem Tiled.putOn (h : w.Tiled regions) (hput : PutOn boundary bytes w w') :
    w'.Tiled (⟨w'.length, bytes.length⟩ :: regions) := by
  obtain ⟨n, -, rfl⟩ := hput
  exact (h.zeros n).front bytes

/-- What was written is still there behind what was put. -/
private theorem PutOn.suffix (hput : PutOn boundary bytes w w') : w <:+ w' := by
  obtain ⟨n, -, rfl⟩ := hput
  rw [← List.append_assoc]
  exact List.suffix_append _ w

/-- So has an object, of the length that its fields take. -/
private theorem Tiled.putObject (h : w.Tiled regions) {fields : List Field} {vtable : Nat}
    (hobject : ObjectPut fields vtable w w') :
    w'.Tiled (⟨w'.length, objectLength fields⟩ :: regions) := by
  obtain ⟨n, -, rfl⟩ := hobject.eq_append
  have hfront := (h.zeros n).front (objectBytes (w.length + n) vtable fields)
  rwa [length_objectBytes] at hfront

end Bytes

/-- What was written is still there behind an object. -/
private theorem ObjectPut.suffix {fields : List Field} {vtable : Nat} {w object : Bytes}
    (h : ObjectPut fields vtable w object) : w <:+ object := by
  obtain ⟨n, -, rfl⟩ := h.eq_append
  rw [← List.append_assoc]
  exact List.suffix_append _ w

/-- **All that was written** has regions that do not overlap, and all else is zero. -/
theorem Stacked.tiled {items : List (Offset × Item)} {vtables : List Nat} {w data : Bytes}
    (h : Stacked items vtables w) (hdata : w <:+ data)
    (hcovered : ∀ offset fields, (offset, .object fields) ∈ items → covered fields ≤ maxFields) :
    w.Tiled (vtables.map (vtableRegion data) ++ items.map itemRegion) := by
  induction h with
  | nil => exact .nil
  | string _ hput ih | vector _ hput ih =>
    have hrest := ih (hput.suffix.trans hdata) fun _ _ hmem => hcovered _ _ (.tail _ hmem)
    have hnew := hrest.putOn hput
    rw [Draft.length_vectorBytes] at hnew
    exact hnew.perm List.perm_middle.symm
  | shared _ hobject _ _ ih =>
    have hrest := ih (hobject.suffix.trans hdata) fun _ _ hmem => hcovered _ _ (.tail _ hmem)
    exact (hrest.putObject hobject).perm List.perm_middle.symm
  | @fresh items vtables w object fields vtable _ hobject hplace ih =>
    have hsuffix : object <:+ data := (List.suffix_append _ _).trans hdata
    have hrest := ih (hobject.suffix.trans hsuffix) fun _ _ hmem => hcovered _ _ (.tail _ hmem)
    have hnew := (hrest.putObject hobject).front (vtableOf fields)
    have hvtable : vtableRegion data vtable
        = ⟨(vtableOf fields ++ object).length, (vtableOf fields).length⟩ := by
      have hstands := (Bytes.standsAt_front (vtableOf fields) object).of_suffix hdata
      rw [vtableRegion, hplace, hstands.vtableFrom_eq (hcovered _ _ (.head _))]
    -- The vtable comes last among the vtables, and the object first among the items.
    rw [List.map_append, List.map_singleton, hvtable, List.append_assoc, List.singleton_append]
    refine hnew.perm (.trans ?_ List.perm_middle.symm)
    exact .cons _ List.perm_middle.symm

/-! ### Parts of an object -/

/-- The regions of the fields in what they take up. -/
def fieldRegions : List Field → List Region
  | [] => []
  | f :: fields => ⟨extent (f :: fields), f.value.width⟩ :: fieldRegions fields

/-- The fields of an object and the zeros between them tile its bytes. -/
private theorem tiled_fieldBytes (start : Nat) (fields : List Field) :
    (fieldBytes start fields).Tiled (fieldRegions fields) := by
  induction fields with
  | nil => exact .nil
  | cons f fields ih =>
    have hfield := (ih.zeros (padding (extent fields + f.value.width) f.value.width)).front
      (f.value.bytes (start + extent (f :: fields)))
    rwa [← fieldBytes, length_fieldBytes, FieldValue.length_bytes] at hfield

/-- **The parts of an object** are the reference to its vtable and its fields. -/
theorem tiled_objectBytes (start vtable : Nat) (fields : List Field) :
    (objectBytes start vtable fields).Tiled (⟨objectLength fields, 4⟩ :: fieldRegions fields) := by
  have hobject := ((tiled_fieldBytes start fields).zeros (padding (extent fields + 4) 4)).front
    (vtableReference vtable (start + objectLength fields))
  rwa [← objectBytes, length_objectBytes, length_vtableReference] at hobject

/-- The regions of the fields can be told from where the fields are found. -/
private theorem map_shift_fieldRegions (start : Nat) (place : UInt16 → Nat) {fields : List Field}
    (hnodup : (fields.map (·.slot)).Nodup)
    (hplace : ∀ slot v inner, findField slot fields = some (v, inner) →
      place slot = start + inner) :
    (fieldRegions fields).map (Region.shift start)
      = fields.map fun f => ⟨place f.slot, f.value.width⟩ := by
  induction fields with
  | nil => rfl
  | cons f fields ih =>
    obtain ⟨hfresh, hrest⟩ := List.nodup_cons.mp hnodup
    have hfirst := hplace f.slot f.value (extent (f :: fields)) (if_pos rfl)
    rw [fieldRegions, List.map_cons, List.map_cons, hfirst]
    refine congrArg (Region.shift start ⟨_, _⟩ :: ·) (ih hrest fun slot v inner hfound => ?_)
    -- No slot comes up twice, so what is found among the later fields is found among all of them.
    have hne : f.slot ≠ slot := by
      rintro rfl
      have hnone : findField f.slot fields = none :=
        findField_eq_none_iff.mpr fun g hg heq => hfresh (List.mem_map.mpr ⟨g, hg, heq⟩)
      cases hnone.symm.trans hfound
    exact hplace slot v inner (by rw [findField, if_neg hne, hfound])

/-- The reference to the vtable and the fields of the object that starts `place` bytes before the
end, where its vtable `v` says that they are. -/
def objectParts (v : VTable) (place : Nat) (fields : List Field) : List Region :=
  ⟨place, 4⟩ :: fields.map fun f => ⟨place - (v.fieldOffset f.slot).toNat, f.value.width⟩

/-- The vtable of an object says where its parts are. -/
theorem objectParts_vtableOf {fields : List Field} (hlength : objectLength fields ≤ 65535)
    (hnodup : (fields.map (·.slot)).Nodup) (start position : Nat) :
    objectParts ⟨vtableOf fields, position⟩ (start + objectLength fields) fields
      = (⟨objectLength fields, 4⟩ :: fieldRegions fields).map (Region.shift start) := by
  rw [objectParts, List.map_cons]
  refine congrArg (Region.shift start ⟨_, _⟩ :: ·) (Eq.symm ?_)
  refine map_shift_fieldRegions start (fun slot => start + objectLength fields
    - (VTable.fieldOffset ⟨vtableOf fields, position⟩ slot).toNat) hnodup
    fun slot v inner hfound => ?_
  have hinner := (le_of_findField hfound).2
  have hextent := extent_le_objectLength fields
  rw [fieldOffset_vtableOf, vtableEntry, hfound, Option.map_some, Option.getD_some,
    UInt16.toNat_ofNat_of_lt' (Nat.lt_succ_of_le (Nat.le_trans (Nat.sub_le _ _) hlength))]
  omega

/-- The vtable that is read for the object that starts `place` bytes before the end of `data` is
one of those at `vtables`, and the object is made up of parts where that says. -/
structure ObjectTiled (data : Bytes) (vtables : List Nat) (place : Nat) (fields : List Field)
    (v : VTable) : Prop where
  vtable_eq : Table.vtable ⟨data, data.length - place⟩ = .ok v
  position_mem : ∃ vtable ∈ vtables, v.position = data.length - vtable
  objectLength_eq : v.objectLength = objectLength fields
  parts : data.TiledIn ⟨place, v.objectLength⟩ (objectParts v place fields)

/-- **An object is made up of its parts**, where its vtable says that they are. -/
theorem Account.Shares.objectTiled {a : Account} {closed : Nat} {d : Draft} {offset : Offset}
    {fields : List Field} (h : a.Shares closed d) (hd : a.Describes d)
    (hmem : (offset, .object fields) ∈ a.items) :
    ∃ v, ObjectTiled d.written d.vtables offset.value fields v := by
  obtain ⟨vtable, hvtable, -, hread⟩ := h.vtable_eq hd hmem
  obtain ⟨start, hoffset, hlaid, hlength, link, hstands, -⟩ := hd.items offset _ hmem
  have hobject := objectLength_vtableOf (d.written.length - vtable) hlength
  refine ⟨_, hread, ⟨vtable, hvtable, rfl⟩, hobject, ?_⟩
  have hparts := (tiled_objectBytes start link fields).within hstands
  rw [length_objectBytes, Nat.add_sub_cancel] at hparts
  rwa [hobject, hoffset, objectParts_vtableOf hlength hlaid.slots_nodup]

/-! ### The finished buffer -/

/-- The regions of what is in a finished buffer: the reference to the root, the vtables, and what
was created since the last reset. -/
def Account.regions (a : Account) (vtables : List Nat) (data : Bytes) : List Region :=
  ⟨data.length, 4⟩ :: (vtables.map (vtableRegion data) ++ a.items.map itemRegion)

/-- What `data` is made up of. -/
structure Account.TiledIn (a : Account) (vtables : List Nat) (root : Offset) (data : Bytes) :
    Prop where
  header : data.StandsAt data.length (littleEndian 4 (data.length - root.value))
  /-- The vtables are those of the objects, each once. -/
  vtables_eq : vtables.map data.vtableFrom = vtablesOf a.items
  vtables_nodup : (vtables.map data.vtableFrom).Nodup
  items : ∀ offset item, (offset, item) ∈ a.items → item.StandsIn data offset.value
  tiled : data.Tiled (a.regions vtables data)
  objects : ∀ offset fields, (offset, .object fields) ∈ a.items →
    ∃ v, ObjectTiled data vtables offset.value fields v

/-- What a finished account tells of tiles the buffer. -/
private theorem Account.Finished.tiledIn {a : Account} {root : Offset} {d : Draft}
    (h : a.Finished root d) :
    a.TiledIn d.vtables root d.written := by
  obtain ⟨closed, hshares⟩ := h.shares
  obtain ⟨w, hstacked, hput⟩ := h.stacked
  have htiled := hstacked.tiled hput.suffix fun offset fields hmem => by
    obtain ⟨start, -, hstands⟩ := h.describes.items offset _ hmem
    exact hstands.laidOut.covered_le
  have hregions := htiled.putOn hput
  rw [length_littleEndian] at hregions
  have hheader : d.written.StandsAt d.written.length
      (littleEndian 4 (d.written.length - root.value)) := by
    obtain ⟨n, -, heq⟩ := hput
    have hfront := Bytes.standsAt_front (littleEndian 4 (d.written.length - root.value))
      (List.replicate n 0 ++ w)
    rwa [← heq] at hfront
  exact
    { header := hheader
      vtables_eq := hshares.vtables
      vtables_nodup := hshares.vtables ▸ nodup_vtablesOf a.items
      items := h.describes.items
      tiled := hregions
      objects := fun offset fields hmem => hshares.objectTiled h.describes hmem }

namespace Builder

/-- **A finished buffer is made up of regions that do not overlap**, and what is in none of them is
zero: the reference to the root, the vtables, each once, and the objects, strings and byte vectors
that were created since the last reset. Each object is made up of the reference to its vtable and
of its fields, within the length that its vtable gives, and what of it is in none of these is zero
too. -/
theorem tiled_of_finish {options : BuilderOptions} {calls : List Call} {root : Offset}
    {replies : List Reply} {b : Builder} {a : Account}
    (hrun : runCalls (calls ++ [.finish root]) (withOptions options) = .ok (replies, b))
    (haccount :
      Account.empty.afterCalls options.forceDefaults (calls ++ [.finish root]) replies = a) :
    ∃ data, Build.finishedData .finishedData b = .ok (data, b) ∧
      a.TiledIn b.vtables root data := by
  obtain ⟨hdraft, hdata⟩ := draft_of_finish hrun
  have hfinished := Account.finished_of_run hdraft
  rw [haccount] at hfinished
  exact ⟨b.written, hdata, hfinished.tiledIn⟩

/-- After a reset, on memory full of ones: a string, two objects that share a vtable, and a byte
vector. -/
def reusedCalls : List Call :=
  [.createByteVector (List.replicate 48 255), .reset, .createString "abc", .startObject 3,
    .pushSlot .u8 0 (9 : UInt8) (0 : UInt8), .pushSlot .u64 2 (7 : UInt64) (0 : UInt64), .endObject,
    .startObject 3, .pushSlot .u8 0 (8 : UInt8) (0 : UInt8),
    .pushSlot .u64 2 (6 : UInt64) (0 : UInt64), .endObject, .createByteVector [1]]

/-- The replies to `reusedCalls` and to finishing. -/
def reusedReplies : List Reply :=
  [.place ⟨52⟩, .done, .place ⟨8⟩, .done, .done, .done, .place ⟨28⟩, .done, .done, .done,
    .place ⟨60⟩, .place ⟨68⟩, .done]

/-- What they tell of the construction. -/
def reusedAccount : Account :=
  Account.empty.afterCalls false (reusedCalls ++ [.finish ⟨60⟩]) reusedReplies

/-- The second object shares the vtable of the first, and there is a zero byte between the two. -/
theorem tiled_of_finish_reused :
    ∃ b data v, runCalls (reusedCalls ++ [.finish ⟨60⟩]) (withOptions ⟨16, false⟩)
        = .ok (reusedReplies, b) ∧
      Build.finishedData .finishedData b = .ok (data, b) ∧
      data.Tiled [⟨72, 4⟩, ⟨38, 10⟩, ⟨68, 5⟩, ⟨60, 20⟩, ⟨28, 20⟩, ⟨8, 8⟩] ∧
      data[33]? = some 0 ∧
      Table.vtable ⟨data, data.length - 60⟩ = .ok v ∧
      data.TiledIn ⟨60, 20⟩ [⟨60, 4⟩, ⟨60 - (v.fieldOffset 2).toNat, 8⟩,
        ⟨60 - (v.fieldOffset 0).toNat, 1⟩] := by
  obtain ⟨⟨replies, b⟩, hrun, hshown⟩ :=
    exists_ok_of_any (p := fun r => r.1 == reusedReplies &&
        reusedAccount.regions r.2.vtables r.2.written
          == [⟨72, 4⟩, ⟨38, 10⟩, ⟨68, 5⟩, ⟨60, 20⟩, ⟨28, 20⟩, ⟨8, 8⟩])
      (x := runCalls (reusedCalls ++ [.finish ⟨60⟩]) (withOptions ⟨16, false⟩)) (by decide +kernel)
  obtain ⟨hreplies, hregions⟩ := (Bool.and_eq_true _ _).mp hshown
  obtain rfl : replies = reusedReplies := eq_of_beq hreplies
  obtain ⟨data, hdata, hmade⟩ := tiled_of_finish (a := reusedAccount) hrun rfl
  obtain rfl : data = b.written := by
    obtain ⟨_, -, heq⟩ := bind_eq_ok_iff.mp hdata
    cases heq
    rfl
  have htiled := hmade.tiled
  rw [eq_of_beq hregions] at htiled
  obtain ⟨v, hobject⟩ := hmade.objects ⟨60⟩ _ (.tail _ (.head _))
  have hparts := hobject.parts
  rw [hobject.objectLength_eq] at hparts
  have hlength : b.written.length = 72 :=
    congrArg Region.place (List.cons.inj (eq_of_beq hregions)).1
  refine ⟨b, b.written, v, hrun, hdata, htiled, ?_, hobject.vtable_eq, hparts⟩
  refine htiled.zero 33 (by omega) ?_
  simp only [List.forall_mem_cons, Region.Covers, hlength]
  simp

end Builder

end EnvelopeWire
