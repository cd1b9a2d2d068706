import EnvelopeWire.Proofs.Builder.Layout

/-!
# What a construction has written

An `Account` keeps what calls and their replies tell of a construction since the last reset: the
fields pushed into the open object, and for each offset that was given out what it stands for. It
knows nothing of bytes. `Account.Describes` says what the bytes of a draft have to do with it: under
each offset stands what the account says, objects with a vtable that tells where their fields are.

* `Account.Describes.perform`: a call keeps the account true.
* `Account.Describes.run`: so does a whole sequence of calls.
-/

namespace EnvelopeWire

/-- What an offset stands for. -/
inductive Item
  | object (fields : List Field)
  | string (text : String)
  | vector (bytes : Bytes)

/-- What calls and replies tell of a construction since the last reset. -/
structure Account where
  /-- The fields of the open object, last one first. -/
  fields : List Field
  /-- What was written under each offset, last one first. -/
  items : List (Offset × Item)

namespace Account

/-- Nothing was written. -/
def empty : Account := { fields := [], items := [] }

/-- Notes that `item` was written, if there is an offset for it. -/
def add (a : Account) (item : Item) : Reply → Account
  | .place offset => { a with items := (offset, item) :: a.items }
  | _ => a

/-- Notes a field of the open object. -/
def push (a : Account) (slot : UInt16) (value : FieldValue) : Account :=
  { a with fields := { slot := slot, value := value } :: a.fields }

/-- What a call with its reply tells. -/
def note (forceDefaults : Bool) (a : Account) (call : Call) (reply : Reply) : Account :=
  match call with
  | .startObject _ => { a with fields := [] }
  | .pushSlot type slot value default =>
    if type.agrees value default && !forceDefaults then a else a.push slot (.scalar type value)
  | .pushSlotOffset slot target => a.push slot (.reference target)
  | .endObject => a.add (.object a.fields) reply
  | .createString text => a.add (.string text) reply
  | .createByteVector bytes => a.add (.vector bytes) reply
  | .reset => empty
  | .finish _ | .finishedData | .takeFinishedData => a

/-- What a sequence of calls with their replies tells. -/
def afterCalls (forceDefaults : Bool) : Account → List Call → List Reply → Account
  | a, call :: calls, reply :: replies =>
    afterCalls forceDefaults (a.note forceDefaults call reply) calls replies
  | a, _, _ => a

end Account

/-! ### What stands in the bytes -/

/-- The fields of an object in front of `start` bytes are laid out as they have to be. -/
structure LaidOut (start : Nat) (fields : List Field) : Prop where
  start_mod : start % 8 = 0
  slots_nodup : (fields.map (·.slot)).Nodup
  covered_le : covered fields ≤ maxFields
  /-- A reference leads to something written earlier. -/
  target_le : ∀ {slot : UInt16} {target : Offset} {place : Nat},
    findField slot fields = some (.reference target, place) →
      0 < target.value ∧ target.value + 4 ≤ start + place

/-- An object stands in `w` in front of `start` bytes, and its vtable stands there too. -/
structure ObjectStands (w : Bytes) (start : Nat) (fields : List Field) : Prop where
  laidOut : LaidOut start fields
  length_le : objectLength fields ≤ 65535
  stands : ∃ vtable, w.StandsAt (start + objectLength fields) (objectBytes start vtable fields) ∧
    w.StandsAt vtable (vtableOf fields)

/-- What an offset stands for stands there. -/
def Item.StandsIn (w : Bytes) (place : Nat) : Item → Prop
  | object fields => ∃ start, place = start + objectLength fields ∧ ObjectStands w start fields
  | string text => (utf8 text).length < maxBufferSize ∧
    w.StandsAt place (vectorBytes (utf8 text) true)
  | vector bytes => bytes.length < maxBufferSize ∧ w.StandsAt place (vectorBytes bytes false)

/-- An item goes on standing when more is written in front of it. -/
private theorem Item.StandsIn.of_suffix {w w' : Bytes} {place : Nat} {item : Item}
    (h : item.StandsIn w place) (hw : w <:+ w') : item.StandsIn w' place := by
  cases item with
  | object fields =>
    obtain ⟨start, hplace, hlaid, hlength, vtable, hobject, hvtable⟩ := h
    exact ⟨start, hplace, hlaid, hlength, vtable, hobject.of_suffix hw, hvtable.of_suffix hw⟩
  | string text => exact ⟨h.1, h.2.of_suffix hw⟩
  | vector bytes => exact ⟨h.1, h.2.of_suffix hw⟩

/-- What stands somewhere has room for at least a byte. -/
theorem Item.StandsIn.bounds {w : Bytes} {place : Nat} {item : Item} (h : item.StandsIn w place) :
    0 < place ∧ place ≤ w.length := by
  have hprefix {count bytes : Bytes} (hcount : count.length = 4)
      (hstands : w.StandsAt place (count ++ bytes)) : 0 < place ∧ place ≤ w.length := by
    have hlength := hstands.left.length_le
    exact ⟨by omega, hstands.place_le⟩
  cases item with
  | object fields =>
    obtain ⟨start, rfl, -, -, vtable, hobject, -⟩ := h
    exact hprefix (length_vtableReference _ _) hobject
  | string text => exact hprefix (ScalarType.length_encode _ _) h.2
  | vector bytes => exact hprefix (ScalarType.length_encode _ _) h.2

/-- An object with `count` slots is open in front of `start` bytes, and `fields` are its fields. -/
structure OpenObject (d : Draft) (start : Nat) (count : UInt16) (fields : List Field) : Prop where
  laidOut : LaidOut start fields
  count_le : count.toNat ≤ maxFields
  slot_lt : ∀ f ∈ fields, f.slot < count
  fields_eq : d.fields = marks start fields
  written_eq : ∃ base : Bytes, base.length = start ∧ d.written = fieldBytes start fields ++ base

/-- **What an account says of a draft.** -/
structure Account.Describes (a : Account) (d : Draft) : Prop where
  used_le : d.used ≤ maxBufferSize
  minAlign_le : d.minAlign ≤ 8
  vtablesWritten : d.VTablesWritten
  items : ∀ offset item, (offset, item) ∈ a.items → item.StandsIn d.written offset.value
  openObject : ∀ start count, d.phase = .building start count → OpenObject d start count a.fields

/-! ### The open object -/

namespace OpenObject

variable {d d' : Draft} {start : Nat} {count : UInt16} {fields : List Field}

/-- Between the start of an open object and its last field there is nothing but its fields. -/
theorem used_eq (h : OpenObject d start count fields) : d.used = start + extent fields := by
  obtain ⟨base, hbase, hwritten⟩ := h.written_eq
  rw [Draft.used, hwritten, List.length_append, length_fieldBytes, hbase, Nat.add_comm]

/-- A draft in which an object was just opened. -/
theorem opened (hcount : count.toNat ≤ maxFields) (hused : d.used % 8 = 0)
    (hfields : d.fields = []) :
    OpenObject d d.used count [] where
  laidOut :=
    { start_mod := hused
      slots_nodup := List.nodup_nil
      covered_le := Nat.zero_le _
      target_le := fun h => by cases h }
  count_le := hcount
  slot_lt := List.forall_mem_nil _
  fields_eq := hfields
  written_eq := ⟨d.written, rfl, rfl⟩

/-- A value that is put on its boundary is the next field. -/
theorem push (h : OpenObject d start count fields) {slot : UInt16} {v : FieldValue}
    (hslot : slot < count) (hfresh : ∀ m ∈ d.fields, m.slot ≠ slot)
    (hput : d.putAligned (v.bytes d'.used) v.width = .ok d')
    (htarget : ∀ target, v = .reference target → 0 < target.value ∧ target.value + 4 ≤ d'.used) :
    OpenObject (d'.mark slot) start count ({ slot := slot, value := v } :: fields) := by
  -- The builder pads for where the value lies in the buffer, the layout for where it lies in the
  -- object; the two agree because the object starts on a multiple of eight.
  have hpadding : padding (d.used + v.width) v.width
      = padding (extent fields + v.width) v.width := by
    rw [h.used_eq, Nat.add_assoc, padding_start h.laidOut.start_mod]
  have hplace : d'.used = start + extent ({ slot := slot, value := v } :: fields) := by
    rw [Draft.used_of_putAligned hput, FieldValue.length_bytes, hpadding, h.used_eq]
    simp only [extent]
    omega
  have hnew : ∀ f ∈ fields, f.slot ≠ slot := by
    rw [h.fields_eq] at hfresh
    exact forall_mem_marks (p := (· ≠ slot)).mp hfresh
  have hslots : ∀ f ∈ ({ slot := slot, value := v } : Field) :: fields, f.slot < count :=
    List.forall_mem_cons.mpr ⟨hslot, h.slot_lt⟩
  obtain ⟨base, hbase, hwritten⟩ := h.written_eq
  obtain ⟨-, hd'⟩ := Draft.put_eq_ok_iff.mp hput
  refine ⟨⟨h.laidOut.start_mod, ?_, ?_, ?_⟩, h.count_le, hslots, ?_, base, hbase, ?_⟩
  · refine List.nodup_cons.mpr ⟨fun hmem => ?_, h.laidOut.slots_nodup⟩
    obtain ⟨f, hf, heq⟩ := List.mem_map.mp hmem
    exact hnew f hf heq
  · exact Nat.le_trans (covered_le fun f hf => UInt16.lt_iff_toNat_lt.mp (hslots f hf)) h.count_le
  · intro slot' target place hfind
    rw [findField] at hfind
    split at hfind
    · cases hfind
      rw [← hplace]
      exact htarget target rfl
    · exact h.laidOut.target_le hfind
  · have hfields : d'.fields = d.fields := by rw [← hd']; rfl
    rw [Draft.mark, hfields, h.fields_eq, hplace]
    rfl
  · change d'.written = _
    rw [FieldValue.length_bytes, hpadding, hplace] at hd'
    rw [← hd', fieldBytes]
    change _ ++ d.written = _
    simp only [hwritten, List.append_assoc]

end OpenObject

namespace Draft

/-- A vtable that is found is one of those written, and stands there. -/
theorem stands_of_findVTable {d : Draft} {vtable : Bytes} {place : Nat} (h : d.VTablesWritten)
    (hfind : d.findVTable vtable = some place) :
    place ∈ d.vtables ∧ d.written.StandsAt place vtable := by
  have hmem : place ∈ d.vtables := List.mem_of_find?_eq_some hfind
  have hreads : vtable.isPrefixOf (d.written.drop (d.used - place)) = true :=
    List.find?_some (p := fun place => vtable.isPrefixOf (d.written.drop (d.used - place))) hfind
  exact ⟨hmem, Bytes.standsAt_of_isPrefixOf (h place hmem) hreads⟩

/-- **Linking a vtable.** It stands somewhere then, with the reference to it in front of what was
written before: where it was found, or else in front of everything. -/
theorem linkVTable_cases {d d' : Draft} {vtable : Bytes} (h : d.VTablesWritten)
    (hlink : d.linkVTable (d.used + 4) vtable = .ok d') :
    ∃ place, d'.written.StandsAt place vtable ∧
      vtableReference place (d.used + 4) ++ d.written <:+ d'.written ∧
      (d.findVTable vtable = some place ∧ d'.vtables = d.vtables ∧
          d'.vtablesReused = d.vtablesReused + 1 ∨
        d.findVTable vtable = none ∧ d'.vtables = d.vtables ++ [place] ∧
          d'.vtablesReused = d.vtablesReused) := by
  rw [linkVTable] at hlink
  split at hlink
  case h_1 place hfind =>
    -- A vtable that is shared was written for an object that may lie far behind this one.
    obtain ⟨-, rfl⟩ := put_eq_ok_iff.mp hlink
    obtain ⟨-, hstands⟩ := stands_of_findVTable h hfind
    exact ⟨place, hstands.of_suffix (List.suffix_append _ _), List.suffix_rfl,
      .inl ⟨hfind, rfl, rfl⟩⟩
  case h_2 hfind =>
    obtain ⟨-, rfl⟩ := put_eq_ok_iff.mp hlink
    refine ⟨vtable.length + (d.used + 4), ?_, ?_, .inr ⟨hfind, rfl, rfl⟩⟩
    · have hstands := Bytes.standsAt_front vtable
        (vtableReference (vtable.length + (d.used + 4)) (d.used + 4) ++ d.written)
      rw [← List.append_assoc] at hstands
      have hlength : (vtable ++ vtableReference (vtable.length + (d.used + 4)) (d.used + 4)
          ++ d.written).length = vtable.length + (d.used + 4) := by
        simp only [List.length_append, length_vtableReference, length_written]
        omega
      rwa [hlength] at hstands
    · rw [List.append_assoc]
      exact List.suffix_append _ _

end Draft

namespace OpenObject

variable {d d' p : Draft} {start : Nat} {count : UInt16} {fields : List Field}

/-- What is written when the reference to the vtable is to be put. -/
theorem padded (h : OpenObject d start count fields) (hpad : d.pad 4 4 = .ok p) :
    p.written = List.replicate (padding (extent fields + 4) 4) 0 ++ d.written ∧
      p.used + 4 = start + objectLength fields ∧ p.fields = marks start fields ∧
      p.vtables = d.vtables := by
  obtain ⟨-, rfl⟩ := Draft.put_eq_ok_iff.mp hpad
  have hpadding : padding (d.used + 4) 4 = padding (extent fields + 4) 4 := by
    rw [h.used_eq, Nat.add_assoc]
    exact padding_start h.laidOut.start_mod (extent fields + 4) (.reference ⟨0⟩)
  have hused : d.used = start + extent fields := h.used_eq
  refine ⟨congrArg (fun n => List.replicate n (0 : UInt8) ++ d.written) hpadding, ?_,
    h.fields_eq, rfl⟩
  rw [Draft.used, List.length_append, List.length_replicate, hpadding, objectLength]
  change _ + d.used + 4 = _
  omega

/-- The vtable of the open object is computed without failure. -/
theorem vtableBytes_eq (h : OpenObject d start count fields) (hpad : d.pad 4 4 = .ok p)
    (hlength : objectLength fields ≤ 65535) :
    Builder.vtableBytes (p.used + 4) (p.used + 4 - start) p.fields = .ok (vtableOf fields) := by
  obtain ⟨-, hused, hfields, -⟩ := h.padded hpad
  rw [hused, Nat.add_sub_cancel_left, hfields]
  exact vtableBytes_marks hlength h.laidOut.covered_le h.laidOut.slots_nodup

/-- Closing the open object is linking its vtable, once the reference has room. -/
theorem closeObject_eq (h : OpenObject d start count fields) (hpad : d.pad 4 4 = .ok p)
    (hfits : p.used + 4 ≤ maxBufferSize) (hlength : objectLength fields ≤ 65535) :
    d.closeObject start = (p.linkVTable (p.used + 4) (vtableOf fields)).map fun closed =>
      (⟨p.used + 4⟩, { closed with fields := [], phase := .idle }) := by
  obtain ⟨-, hused, -, -⟩ := h.padded hpad
  have hdifference : difference (p.used + 4) start = .ok (p.used + 4 - start) :=
    difference_eq_ok_iff.mpr ⟨by omega, rfl⟩
  rw [Draft.closeObject, hpad]
  change (ensure (p.used + 4 ≤ maxBufferSize) _ >>= _) = _
  rw [(ensure_eq_ok_iff (u := ())).mpr hfits]
  change (difference (p.used + 4) start >>= _) = _
  rw [hdifference]
  change (ensure (p.used + 4 - start ≤ 65535) _ >>= _) = _
  rw [(ensure_eq_ok_iff (u := ())).mpr (by omega)]
  change (Builder.vtableBytes (p.used + 4) (p.used + 4 - start) p.fields >>= _) = _
  rw [h.vtableBytes_eq hpad hlength]
  change (p.linkVTable (p.used + 4) (vtableOf fields) >>= _) = _
  cases p.linkVTable (p.used + 4) (vtableOf fields) <;> rfl

/-- An object that is closed stands where its offset says. -/
private theorem close {offset : Offset} (h : OpenObject d start count fields)
    (hv : d.VTablesWritten) (hclose : d.closeObject start = .ok (offset, d')) :
    (Item.object fields).StandsIn d'.written offset.value := by
  obtain ⟨p, hpad, -, -, hlength, vtable, hvtable, closed, hlink, rfl, rfl⟩ :=
    Draft.closeObject_eq_ok_iff.mp hclose
  obtain ⟨hwritten, hused, -, -⟩ := h.padded hpad
  rw [hused, Nat.add_sub_cancel_left] at hlength
  cases (h.vtableBytes_eq hpad hlength).symm.trans hvtable
  obtain ⟨place, hstands, hsuffix, -⟩ := Draft.linkVTable_cases (hv.pad hpad) hlink
  refine ⟨start, hused, h.laidOut, hlength, place, ?_, hstands⟩
  -- The reference, the padding and the fields were written apart; together they are the object.
  obtain ⟨base, hbase, hd⟩ := h.written_eq
  rw [hused, hwritten, hd] at hsuffix
  have hfront := Bytes.standsAt_front (objectBytes start place fields) base
  rw [List.length_append, length_objectBytes, hbase, Nat.add_comm] at hfront
  refine hfront.of_suffix ?_
  simpa only [objectBytes, List.append_assoc] using hsuffix

end OpenObject

/-- A vector that is put stands where the draft ends then. -/
theorem Draft.stands_of_putVector {d d' : Draft} {bytes : Bytes} {terminated : Bool}
    (h : d.putVector bytes terminated = .ok d') :
    bytes.length < maxBufferSize ∧ d'.written.StandsAt d'.used (vectorBytes bytes terminated) ∧
      d'.phase = d.phase := by
  obtain ⟨hlength, hput⟩ := putVector_eq_ok_iff.mp h
  obtain ⟨-, rfl⟩ := put_eq_ok_iff.mp hput
  refine ⟨hlength, ?_, rfl⟩
  rw [used, List.append_assoc]
  exact Bytes.standsAt_front _ _

/-- The reference to the root stands at the front of a finished buffer. -/
theorem Draft.stands_of_finish {d d' : Draft} {root : Offset} {reply : Reply}
    (h : d.perform (.finish root) = .ok (reply, d')) :
    0 < root.value ∧ root.value + 4 ≤ d'.used ∧ d'.phase = .finished ∧
      d'.written.StandsAt d'.used (littleEndian 4 (d'.used - root.value)) := by
  cases step_of_perform h with | @finish _ p q hidle hpad href => ?_
  obtain ⟨hpos, hle, hput⟩ := putAligned_of_putReference href
  refine ⟨hpos, hle, rfl, ?_⟩
  obtain ⟨-, hq⟩ := put_eq_ok_iff.mp hput
  have hwritten : q.written = littleEndian 4 (q.used - root.value)
      ++ (List.replicate (padding (p.used + (littleEndian 4 (q.used - root.value)).length) 4) 0
        ++ p.written) := by
    rw [← List.append_assoc]
    exact (congrArg Draft.written hq).symm
  have hfront := Bytes.standsAt_front (littleEndian 4 (q.used - root.value))
    (List.replicate (padding (p.used + (littleEndian 4 (q.used - root.value)).length) 4) 0
      ++ p.written)
  rw [← hwritten] at hfront
  exact hfront

/-! ### The calls -/

namespace Account

variable {a : Account} {d d' : Draft} {call : Call} {reply : Reply}

theorem describes_empty (forceDefaults : Bool) : empty.Describes (Draft.empty forceDefaults) where
  used_le := Nat.zero_le _
  minAlign_le := show 1 ≤ 8 by decide
  vtablesWritten := Draft.vtablesWritten_empty _
  items _ _ hmem := absurd hmem List.not_mem_nil
  openObject _ _ hphase := by cases hphase

/-- What stands stays, unless the call is a reset. -/
private theorem Describes.frame (h : a.Describes d) (hcall : call ≠ .reset)
    (hperform : d.perform call = .ok (reply, d')) :
    d'.used ≤ maxBufferSize ∧ d'.minAlign ≤ 8 ∧ d'.VTablesWritten ∧
      ∀ offset item, (offset, item) ∈ a.items → item.StandsIn d'.written offset.value := by
  have hgrows := Draft.grows_of_perform hcall hperform
  refine ⟨hgrows.used_le h.used_le, hgrows.minAlign_le h.minAlign_le,
    h.vtablesWritten.perform hperform, fun offset item hmem => ?_⟩
  exact (h.items offset item hmem).of_suffix hgrows.written

/-- What stands stays, and what is added to the account stands too. -/
private theorem Describes.add (h : a.Describes d) (hcall : call ≠ .reset)
    (hperform : d.perform call = .ok (reply, d')) {offset : Offset} {item : Item}
    (hnew : item.StandsIn d'.written offset.value) (hphase : d'.phase = .idle) :
    (a.add item (.place offset)).Describes d' := by
  obtain ⟨hused, halign, hvtables, hitems⟩ := h.frame hcall hperform
  refine ⟨hused, halign, hvtables, fun offset' item' hmem => ?_, fun start count hbuilding => ?_⟩
  · rcases List.mem_cons.mp hmem with heq | hmem
    · cases heq
      exact hnew
    · exact hitems offset' item' hmem
  · rw [hphase] at hbuilding
    cases hbuilding

/-- A field that a call puts on its boundary is the next one of the open object. -/
private theorem Describes.push (h : a.Describes d) (hcall : call ≠ .reset) {p : Draft}
    {op : Operation} {slot : UInt16} {v : FieldValue}
    (hperform : d.perform call = .ok (reply, p.mark slot))
    (hcheck : d.phase.checkSlot d.fields op slot = .ok ())
    (hput : d.putAligned (v.bytes p.used) v.width = .ok p)
    (htarget : ∀ target, v = .reference target → 0 < target.value ∧ target.value + 4 ≤ p.used) :
    (a.push slot v).Describes (p.mark slot) := by
  obtain ⟨hused, halign, hvtables, hitems⟩ := h.frame hcall hperform
  obtain ⟨start, count, hphase, hslot, hfresh⟩ := Phase.checkSlot_eq_ok_iff.mp hcheck
  refine ⟨hused, halign, hvtables, hitems, fun start' count' hphase' => ?_⟩
  -- Putting bytes leaves the phase alone, so the object that is open then is the one before.
  have hbuilding : d.phase = .building start' count' :=
    (Draft.phase_of_putAligned hput).symm.trans hphase'
  cases hphase.symm.trans hbuilding
  exact (h.openObject start count hphase).push hslot hfresh hput htarget

/-- **A call keeps the account true.** -/
theorem Describes.perform (h : a.Describes d) (hperform : d.perform call = .ok (reply, d')) :
    (a.note d.forceDefaults call reply).Describes d' := by
  cases Draft.step_of_perform hperform with
  | @startObject fields p hidle hfields hpad =>
    obtain ⟨hused, halign, hvtables, hitems⟩ := h.frame (by simp) hperform
    refine ⟨hused, halign, hvtables, hitems, fun start count hphase => ?_⟩
    cases hphase
    -- Padding for nothing puts an empty piece on a multiple of eight, which is where fields start.
    have hput : d.putAligned [] 8 = .ok p := hpad
    have hmod : p.used % 8 = 0 := Draft.used_mod_of_putAligned (by decide) hput
    exact OpenObject.opened hfields hmod rfl
  | elided hcheck helided =>
    rw [note, if_pos helided]
    exact h
  | pushSlot hcheck hwritten hput =>
    rw [note, if_neg hwritten]
    exact h.push (v := .scalar _ _) (by simp) hperform hcheck hput fun _ hv => by cases hv
  | pushSlotOffset hcheck href =>
    obtain ⟨hpos, hle, hput⟩ := Draft.putAligned_of_putReference href
    refine h.push (v := .reference _) (by simp) hperform hcheck hput fun _ hv => ?_
    cases hv
    exact ⟨hpos, hle⟩
  | endObject hphase hclose =>
    have hstands := (h.openObject _ _ hphase).close h.vtablesWritten hclose
    refine h.add (by simp) hperform hstands ?_
    obtain ⟨-, -, -, -, -, -, -, -, -, -, rfl⟩ := Draft.closeObject_eq_ok_iff.mp hclose
    rfl
  | createString hidle hput | createByteVector hidle hput =>
    obtain ⟨hlength, hstands, hphase⟩ := Draft.stands_of_putVector hput
    exact h.add (by simp) hperform ⟨hlength, hstands⟩ (hphase.trans hidle)
  | finish hidle hpad href =>
    obtain ⟨hused, halign, hvtables, hitems⟩ := h.frame (by simp) hperform
    exact ⟨hused, halign, hvtables, hitems, fun start count hphase => by cases hphase⟩
  -- The account forgets what was written, so nothing has to stand any longer.
  | reset => exact describes_empty _
  | finishedData | takeFinishedData => exact h

/-- **What each call keeps, a sequence of calls keeps.** This may be about what was written so far,
about the draft, and about a state that follows from the calls alone. -/
theorem invariant_of_run {State : Type} (next : State → Call → State)
    (Kept : Account → State → Draft → Prop)
    (hstep : ∀ {a : Account} {s : State} {d d' : Draft} {call : Call} {reply : Reply},
      Kept a s d → d.perform call = .ok (reply, d') →
        Kept (a.note d.forceDefaults call reply) (next s call) d')
    {s : State} {calls : List Call} {replies : List Reply} (h : Kept a s d)
    (hrun : d.run calls = .ok (replies, d')) :
    Kept (a.afterCalls d.forceDefaults calls replies) (calls.foldl next s) d' := by
  induction calls generalizing a s d replies with
  | nil =>
    cases hrun
    exact h
  | cons call calls ih =>
    obtain ⟨reply, e, rest, hperform, hrest, rfl⟩ := Draft.run_cons_eq_ok_iff.mp hrun
    have hnext := ih (hstep h hperform) hrest
    rwa [Draft.forceDefaults_of_perform hperform] at hnext

/-- **A sequence of calls keeps the account true.** -/
theorem Describes.run {calls : List Call} {replies : List Reply} (h : a.Describes d)
    (hrun : d.run calls = .ok (replies, d')) :
    (a.afterCalls d.forceDefaults calls replies).Describes d' :=
  invariant_of_run (fun (_ : Unit) _ => ()) (fun a _ d => a.Describes d)
    (fun h hperform => h.perform hperform) h hrun (s := ())

/-! ### Known offsets -/

/-- `offset` was given out since the last reset. -/
def Knows (a : Account) (offset : Offset) : Prop := offset ∈ a.items.map Prod.fst

instance (a : Account) (offset : Offset) : Decidable (a.Knows offset) :=
  inferInstanceAs (Decidable (offset ∈ a.items.map Prod.fst))

/-- The items of an account are known to it. -/
theorem knows_of_mem {a : Account} {offset : Offset} {item : Item} (h : (offset, item) ∈ a.items) :
    a.Knows offset := List.mem_map.mpr ⟨_, h, rfl⟩

/-- Offsets that a call is given were given out since the last reset. -/
def KnowsTarget (a : Account) : Call → Prop
  | .pushSlotOffset _ target => a.Knows target
  | .finish root => a.Knows root
  | _ => True

instance (a : Account) : (call : Call) → Decidable (a.KnowsTarget call)
  | .pushSlotOffset _ target => inferInstanceAs (Decidable (a.Knows target))
  | .finish root => inferInstanceAs (Decidable (a.Knows root))
  | .startObject _ | .pushSlot _ _ _ _ | .endObject | .createString _ | .createByteVector _
  | .reset | .finishedData | .takeFinishedData => isTrue trivial

/-- All offsets that the calls are given were given out since the last reset before them. -/
def WellReferenced (forceDefaults : Bool) : Account → List Call → List Reply → Prop
  | a, call :: calls, reply :: replies =>
    a.KnowsTarget call ∧
      WellReferenced forceDefaults (a.note forceDefaults call reply) calls replies
  | _, _, _ => True

instance decidableWellReferenced (forceDefaults : Bool) :
    (a : Account) → (calls : List Call) → (replies : List Reply) →
      Decidable (WellReferenced forceDefaults a calls replies)
  | a, call :: calls, reply :: replies =>
    have := decidableWellReferenced forceDefaults (a.note forceDefaults call reply) calls replies
    inferInstanceAs (Decidable (_ ∧ _))
  | _, [], _ => isTrue trivial
  | _, _ :: _, [] => isTrue trivial

/-- The references in `fields` lead to offsets that were given out. -/
def KnowsFields (a : Account) (fields : List Field) : Prop :=
  ∀ f ∈ fields, ∀ target, f.value = .reference target → a.Knows target

/-- All references lead to offsets that were given out since the last reset. -/
structure Closed (a : Account) : Prop where
  fields : a.KnowsFields a.fields
  items : ∀ offset fields, (offset, .object fields) ∈ a.items → a.KnowsFields fields

/-- An empty account refers to nothing. -/
theorem closed_empty : empty.Closed where
  fields _ hf := absurd hf List.not_mem_nil
  items _ _ hmem := absurd hmem List.not_mem_nil

/-- A field may refer to what is known. -/
private theorem Closed.push {a : Account} (h : a.Closed) (slot : UInt16) {value : FieldValue}
    (hvalue : ∀ target, value = .reference target → a.Knows target) :
    (a.push slot value).Closed where
  fields := List.forall_mem_cons.mpr ⟨hvalue, h.fields⟩
  items := h.items

/-- An item may refer to what was known before it. -/
private theorem Closed.add {a : Account} (h : a.Closed) {item : Item}
    (hitem : ∀ fields, item = .object fields → a.KnowsFields fields) (reply : Reply) :
    (a.add item reply).Closed := by
  cases reply with
  | place offset =>
    have hmono {fields : List Field} (hfields : a.KnowsFields fields) :
        (a.add item (.place offset)).KnowsFields fields :=
      fun f hf target htarget => List.mem_cons_of_mem _ (hfields f hf target htarget)
    refine ⟨hmono h.fields, fun offset' fields hmem => ?_⟩
    rcases List.mem_cons.mp hmem with heq | hmem
    · cases heq
      exact hmono (hitem fields rfl)
    · exact hmono (h.items offset' fields hmem)
  | done => exact h
  | data bytes => exact h

/-- A call that refers to what is known leaves nothing dangling. -/
private theorem Closed.note {a : Account} (h : a.Closed) {forceDefaults : Bool} {call : Call}
    (hknows : a.KnowsTarget call) (reply : Reply) : (a.note forceDefaults call reply).Closed := by
  cases call with
  | startObject count => exact ⟨fun _ hf => absurd hf List.not_mem_nil, h.items⟩
  | pushSlot type slot value default =>
    rw [Account.note]
    split
    · exact h
    · exact h.push slot fun target htarget => by cases htarget
  | pushSlotOffset slot target =>
    refine h.push slot fun target' htarget => ?_
    cases htarget
    exact hknows
  | endObject =>
    refine h.add (fun fields hfields => ?_) reply
    cases hfields
    exact h.fields
  | createString text => exact h.add (fun _ hfields => by cases hfields) reply
  | createByteVector bytes => exact h.add (fun _ hfields => by cases hfields) reply
  | reset => exact closed_empty
  | finish root => exact h
  | finishedData => exact h
  | takeFinishedData => exact h

/-- Calls that refer to what is known leave nothing dangling, by induction on the calls. -/
theorem Closed.afterCalls {a : Account} (h : a.Closed) {forceDefaults : Bool} {calls : List Call}
    {replies : List Reply} (hknows : WellReferenced forceDefaults a calls replies) :
    (a.afterCalls forceDefaults calls replies).Closed := by
  induction calls generalizing a replies with
  | nil => exact h
  | cons call calls ih =>
    cases replies with
    | nil => exact h
    | cons reply replies => exact ih (h.note hknows.1 reply) hknows.2

/-- A known offset lies in what is written. -/
theorem Describes.bounds_of_knows (h : a.Describes d) {offset : Offset} (hknows : a.Knows offset) :
    0 < offset.value ∧ offset.value ≤ d.used := by
  obtain ⟨p, hmem, rfl⟩ := List.mem_map.mp hknows
  exact (h.items p.1 p.2 hmem).bounds

end Account

end EnvelopeWire
