import EnvelopeWire.Proofs.Builder.View
import EnvelopeWire.Proofs.Reading.Object

/-!
# Reading back what was built

Whatever calls a buffer is built with, in whatever order, a reader of the finished buffer finds
every object that was written since the last reset at the place that its offset names, whether the
root leads to it or not, and in each slot of it what was written there.

* `rootTable_of_stands`: the root is where the reference at the front of the buffer leads.
* `Account.Describes.shows`: an object that an account tells of reads as the account says.
-/

namespace EnvelopeWire

/-! ### What is to be read -/

/-- What `slot` of `t` refers to is `item`, which was given out as `target`. -/
def Table.RefersTo (t : Table) (slot : UInt16) (target : Offset) : Item → Prop
  | .string text => t.getString slot = .ok (some text)
  | .vector bytes => t.getBytes slot = .ok (some bytes)
  | .object _ => t.getTable slot
    = .ok (some { buffer := t.buffer, position := t.buffer.length - target.value })

/-- `slot` of `t` reads as what was written there: absent, as a scalar with every bit as it was,
or as what `items` tell of the offset. -/
def Table.Shows (t : Table) (items : List (Offset × Item)) (slot : UInt16) :
    Option FieldValue → Prop
  | none =>
    (∀ type default, t.get type slot default = .ok default) ∧
      t.getTable slot = .ok none ∧ t.getString slot = .ok none ∧ t.getBytes slot = .ok none
  | some (.scalar type value) => ∀ default, t.get type slot default = .ok value
  | some (.reference target) =>
    (∃ item, (target, item) ∈ items) ∧
      ∀ item, (target, item) ∈ items → t.RefersTo slot target item

/-! ### Objects of an account -/

namespace Account.Describes

variable {a : Account} {d : Draft}

/-- The object that an account tells of is found at its place. -/
theorem ofPosition_eq (h : a.Describes d) {offset : Offset} {fields : List Field}
    (hmem : (offset, .object fields) ∈ a.items) :
    offset.value ≤ d.written.length ∧
      Table.ofPosition d.written (d.written.length - offset.value)
        = .ok { buffer := d.written, position := d.written.length - offset.value } := by
  obtain ⟨start, hplace, hstands⟩ := h.items offset _ hmem
  obtain ⟨vtable, hobject, -⟩ := hstands.stands
  rw [hplace]
  exact ⟨hobject.place_le, hstands.ofPosition_eq h.used_le⟩

variable {offset : Offset} {fields : List Field} {slot : UInt16}

/-- A slot where nothing was written reads as the default. -/
theorem get_of_absent (h : a.Describes d) (hmem : (offset, .object fields) ∈ a.items)
    (hvalue : valueIn fields slot = none) (type : ScalarType) (default : type.Value) :
    Table.get ⟨d.written, d.written.length - offset.value⟩ type slot default = .ok default := by
  obtain ⟨start, hplace, hstands⟩ := h.items offset _ hmem
  rw [hplace]
  exact hstands.get_of_none h.used_le (valueIn_eq_none_iff.mp hvalue) type default

/-- A scalar reads as it was written. -/
theorem get_of_scalar (h : a.Describes d) (hmem : (offset, .object fields) ∈ a.items)
    {type : ScalarType} {value : type.Value}
    (hvalue : valueIn fields slot = some (.scalar type value)) (default : type.Value) :
    Table.get ⟨d.written, d.written.length - offset.value⟩ type slot default = .ok value := by
  obtain ⟨start, hplace, hstands⟩ := h.items offset _ hmem
  obtain ⟨place, hfound⟩ := valueIn_eq_some_iff.mp hvalue
  rw [hplace]
  exact hstands.get_of_scalar h.used_le hfound default

/-- A slot where nothing was written refers to nothing. -/
theorem getWith_of_absent (h : a.Describes d) (hmem : (offset, .object fields) ∈ a.items)
    (hvalue : valueIn fields slot = none) {α : Type} (read : Nat → Except WireError α) :
    Table.getWith ⟨d.written, d.written.length - offset.value⟩ slot read = .ok none := by
  obtain ⟨start, hplace, hstands⟩ := h.items offset _ hmem
  rw [hplace]
  exact hstands.getWith_of_none h.used_le (valueIn_eq_none_iff.mp hvalue) read

/-- A reference to what an account tells of leads there. -/
theorem refersTo (h : a.Describes d) (hmem : (offset, .object fields) ∈ a.items)
    {target : Offset} (hvalue : valueIn fields slot = some (.reference target)) {item : Item}
    (hitem : (target, item) ∈ a.items) :
    Table.RefersTo ⟨d.written, d.written.length - offset.value⟩ slot target item := by
  obtain ⟨start, hplace, hstands⟩ := h.items offset _ hmem
  obtain ⟨place, hfound⟩ := valueIn_eq_some_iff.mp hvalue
  have htarget := h.items target item hitem
  rw [hplace]
  cases item with
  | string text => exact hstands.getWith_of_reference h.used_le hfound htarget.readString
  | vector bytes => exact hstands.getWith_of_reference h.used_le hfound htarget.readVector
  | object inner =>
    exact hstands.getWith_of_reference h.used_le hfound (h.ofPosition_eq hitem).2

/-- **An object that an account tells of reads as the account says.** -/
theorem shows (h : a.Describes d) (hclosed : a.Closed) (hmem : (offset, .object fields) ∈ a.items)
    (slot : UInt16) :
    Table.Shows ⟨d.written, d.written.length - offset.value⟩ a.items slot
      (valueIn fields slot) := by
  cases hvalue : valueIn fields slot with
  | none =>
    exact ⟨h.get_of_absent hmem hvalue, h.getWith_of_absent hmem hvalue _,
      h.getWith_of_absent hmem hvalue _, h.getWith_of_absent hmem hvalue _⟩
  | some value =>
    cases value with
    | scalar type value => exact h.get_of_scalar hmem hvalue
    | reference target =>
      -- The field that the value comes from refers to something that the account knows.
      obtain ⟨f, hf, hreference⟩ := Option.map_eq_some_iff.mp hvalue
      have hknows :=
        hclosed.items offset fields hmem f (List.mem_of_find?_eq_some hf) target hreference
      obtain ⟨⟨_, item⟩, hitem, rfl⟩ := List.mem_map.mp hknows
      exact ⟨⟨item, hitem⟩, fun item hitem => h.refersTo hmem hvalue hitem⟩

end Account.Describes

/-! ### The root -/

/-- The root of a buffer is read where the reference at its front leads. -/
theorem rootTable_eq_ofPosition {w : Bytes} {root : Offset} (hw : w.length ≤ maxBufferSize)
    (hroot : root.value + 4 ≤ w.length)
    (hstands : w.StandsAt w.length (littleEndian 4 (w.length - root.value))) :
    rootTable w = Table.ofPosition w (w.length - root.value) := by
  obtain ⟨n, hread, hdistance⟩ := hstands.readScalar_distance hw
  rw [Nat.sub_self] at hread
  rw [rootTable, (ensure_eq_ok_iff (u := ())).mpr (show 4 ≤ w.length by omega)]
  change (readScalar .u32 w 0 >>= _) = _
  rw [hread]
  change Table.ofPosition w n.toNat = _
  rw [hdistance]

/-- The root of a buffer is the object that stands where its reference leads. -/
theorem rootTable_of_stands {w : Bytes} {root : Offset} {t : Table}
    (hw : w.length ≤ maxBufferSize) (hroot : root.value + 4 ≤ w.length)
    (hstands : w.StandsAt w.length (littleEndian 4 (w.length - root.value)))
    (h : Table.ofPosition w (w.length - root.value) = .ok t) : rootTable w = .ok t :=
  (rootTable_eq_ofPosition hw hroot hstands).trans h

/-! ### From calls to reads -/

namespace Builder

/-- **What is built is read back.** Where a run of calls ends with finishing an object as the root,
the root is found in the finished buffer, and so is every object written since the last reset, with
every slot reading as what was written there last. -/
theorem read_of_finish {options : BuilderOptions} {calls : List Call} {root : Offset}
    {replies : List Reply} {b : Builder} {a : Account} {fields : List Field}
    (hrun : runCalls (calls ++ [.finish root]) (withOptions options) = .ok (replies, b))
    (hknown : Account.WellReferenced options.forceDefaults .empty (calls ++ [.finish root]) replies)
    (haccount :
      Account.empty.afterCalls options.forceDefaults (calls ++ [.finish root]) replies = a)
    (hroot : (root, .object fields) ∈ a.items) :
    ∃ data, Build.finishedData .finishedData b = .ok (data, b) ∧
      rootTable data = .ok { buffer := data, position := data.length - root.value } ∧
      ∀ offset fields, (offset, .object fields) ∈ a.items →
        offset.value ≤ data.length ∧
        Table.ofPosition data (data.length - offset.value)
          = .ok { buffer := data, position := data.length - offset.value } ∧
        ∀ slot, Table.Shows { buffer := data, position := data.length - offset.value } a.items slot
          (valueIn fields slot) := by
  have hdraft := draft_of_run (by rw [draft_withOptions]; exact Draft.vtablesWritten_empty _) hrun
  rw [draft_withOptions] at hdraft
  have hdescribes : a.Describes b.draft := by
    rw [← haccount]
    exact (Account.describes_empty _).run hdraft
  have hclosed : a.Closed := by
    rw [← haccount]
    exact Account.closed_empty.afterCalls hknown
  obtain ⟨e, reply, hfinish⟩ := Draft.perform_of_run_concat hdraft
  obtain ⟨-, hle, hphase, hstands⟩ := Draft.stands_of_finish hfinish
  refine ⟨b.written, ?_, ?_, fun offset fields hmem => ?_⟩
  · have hchecked : b.phase.checkFinished .finishedData = .ok () :=
      Phase.checkFinished_eq_ok_iff.mpr hphase
    rw [Build.finishedData, hchecked]
    rfl
  · exact rootTable_of_stands hdescribes.used_le hle hstands (hdescribes.ofPosition_eq hroot).2
  · obtain ⟨hplace, hfound⟩ := hdescribes.ofPosition_eq hmem
    exact ⟨hplace, hfound, fun slot => hdescribes.shows hclosed hmem slot⟩

/-- After a reset: a string, an object with a number, and a root that refers to both and whose
second slot is left out. -/
def nestedCalls : List Call :=
  [.createString "old", .reset, .createString "hi", .startObject 1,
    .pushSlot .u16 0 (7 : UInt16) (0 : UInt16), .endObject, .startObject 3, .pushSlotOffset 0 ⟨8⟩,
    .pushSlot .u8 1 (0 : UInt8) (0 : UInt8), .pushSlotOffset 2 ⟨16⟩, .endObject]

/-- The replies to `nestedCalls` and to finishing. -/
def nestedReplies : List Reply :=
  [.place ⟨8⟩, .done, .place ⟨8⟩, .done, .done, .place ⟨16⟩, .done, .done, .done, .done,
    .place ⟨36⟩, .done]

theorem read_of_finish_nested :
    ∃ b data, runCalls (nestedCalls ++ [.finish ⟨36⟩]) (withOptions ⟨256, false⟩)
        = .ok (nestedReplies, b) ∧
      Build.finishedData .finishedData b = .ok (data, b) ∧
      rootTable data = .ok { buffer := data, position := data.length - 36 } ∧
      Table.getString { buffer := data, position := data.length - 36 } 0 = .ok (some "hi") ∧
      Table.get { buffer := data, position := data.length - 36 } .u8 1 (5 : UInt8)
        = .ok (5 : UInt8) ∧
      Table.get { buffer := data, position := data.length - 16 } .u16 0 (5 : UInt16)
        = .ok (7 : UInt16) := by
  obtain ⟨⟨replies, b⟩, hrun, hreplies⟩ := exists_ok_of_any (p := fun r => r.1 == nestedReplies)
    (x := runCalls (nestedCalls ++ [.finish ⟨36⟩]) (withOptions ⟨256, false⟩)) (by decide +kernel)
  obtain rfl : replies = nestedReplies := eq_of_beq hreplies
  obtain ⟨data, hdata, hroot, hobjects⟩ := read_of_finish hrun (by decide) rfl (.head _)
  obtain ⟨-, -, houter⟩ := hobjects ⟨36⟩ _ (.head _)
  obtain ⟨-, -, hinner⟩ := hobjects ⟨16⟩ _ (.tail _ (.head _))
  have hstring := (houter 0).2 (.string "hi") (.tail _ (.tail _ (.head _)))
  exact ⟨b, data, hrun, hdata, hroot, hstring, (houter 1).1 _ _, hinner 0 _⟩

end Builder

end EnvelopeWire
