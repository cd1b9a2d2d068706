import EnvelopeWire.Proofs.Reading.Obtained

/-!
# The ranges that errors name

A read that fails for want of bytes names a range and the length of the buffer, and its message says
that the range is outside the buffer. `Bytes.Fault` tells what is wrong where such an error is
raised; here it is shown that every chain of reads fails with faults of the bytes it started from,
and so when the message is true.

It is true but for two cases. An object whose vtable would start in front of the buffer is reported
by the range of its vtable reference, which was just read. And a reference is reported by its place
and its distance, which end where the buffer does if it leads to the very end.

* `ReadCall.fault_of_run`, `Chain.fault_of_run`: the errors of one read and of a chain of them.
* `Table.ofPosition_of_leadsInFront`, `Table.follow_of_leadsToEnd`: the two cases always end so.
* `Chain.outOfBounds_names`: what is true of a range that is reported.
-/

namespace EnvelopeWire

/-! ### Errors of reads -/

private theorem checked_eq_wire_iff {α : Type} {x : Except WireError α} {fault : WireError} :
    Envelope.checked x = .error (.wire fault) ↔ x = .error fault := by
  cases x with
  | ok a => exact ⟨nofun, nofun⟩
  | error e =>
    constructor
    · rintro ⟨⟩
      rfl
    · rintro ⟨⟩
      rfl

variable {b : Bytes} {fault : WireError}

/-- An error among those that an envelope can have is a fault of the bytes if it is about them. -/
private theorem Bytes.Explains.checked {α : Type} {x : Except WireError α} (hx : b.Explains x)
    (h : Envelope.checked x = .error (.wire fault)) : b.Fault fault :=
  hx _ (checked_eq_wire_iff.mp h)

private theorem RecordType.explains_ofTable (type : RecordType) (b : Bytes) (p : Nat) :
    b.Explains (Record.ofTable ⟨b, p⟩ : Except WireError type.Value) := by
  cases type with
  | table => exact .of_ok _
  | destination => exact explains_destination b p
  | errorContent => exact explains_errorContent b p
  | envelope => exact explains_envelope b p

/-- A record in a slot of a table that was obtained. -/
private theorem Table.LiesIn.explains_getRecord {t : Table} (ht : t.LiesIn b) (type : RecordType)
    (slot : UInt16) : b.Explains (t.getRecord type.Value slot) := by
  obtain ⟨rfl, -⟩ := ht
  exact EnvelopeWire.explains_getRecord t.buffer t.position (type.explains_ofTable t.buffer) slot

/-- The content of an envelope, which is only malformed where its table or the error that stands in
it is. -/
private theorem Table.LiesIn.fault_of_content {e : Envelope} (ht : e.table.LiesIn b)
    (h : e.content = .error (.wire fault)) : b.Fault fault := by
  have htable := ht.explains_getRecord .table 2
  cases hfound : e.contentAs Table with
  | error fault' =>
    rw [Envelope.content, hfound] at h
    cases h
    exact htable fault hfound
  | ok found =>
    have hreads := Envelope.readsContent hfound
    rw [h] at hreads
    cases hreads with | malformed _ hview => ?_
    have hu := ReadInvariant.table_of_getRecord (I := b.obtained) ht .table hfound
    obtain ⟨rfl, -⟩ := hu
    exact explains_errorContent _ _ fault hview

private theorem ContentReport.eq_error_of_ofResult {x : Except EnvelopeError Content}
    {e : EnvelopeError} (h : ofResult x = .error e) : x = .error e := by
  cases x with
  | ok c => cases h
  | error e' =>
    rw [ofResult] at h
    split at h
    · exact congrArg Except.error (Except.error.inj h)
    · cases h

private theorem fault_of_report (h : Report.ofBuffer b = .error (.wire fault)) : b.Fault fault := by
  rcases bind_eq_error_iff.mp h with hwrap | ⟨e, he, hrest⟩
  · exact (explains_ofBuffer b).checked hwrap
  obtain ⟨henvelope, rfl⟩ := ofBuffer_eq_ok_iff.mp (checked_eq_ok_iff.mp he)
  rcases bind_eq_error_iff.mp hrest with hvtable | ⟨v, -, hrest⟩
  · exact (b.explains_vtable _).checked hvtable
  rcases bind_eq_error_iff.mp hrest with hcontent | ⟨content, -, hrest⟩
  · have hlies : Table.LiesIn ⟨b, b.rootAt⟩ b := ⟨rfl, henvelope.table⟩
    exact hlies.fault_of_content (ContentReport.eq_error_of_ofResult hcontent)
  · cases hrest

/-- **A read of something that was obtained from a buffer fails with a fault of the buffer**, if it
fails for its bytes. -/
theorem ReadCall.fault_of_run {k l : Kind} {a : k.Value} (call : ReadCall k l)
    (ha : b.obtained.Holds k a) (h : call.run a = .error (.wire fault)) : b.Fault fault := by
  cases call with
  | readScalar type i =>
    obtain rfl : a = b := ha
    exact (Bytes.explains_readScalar a type _).checked (map_eq_error_iff.mp h)
  | rootTable =>
    obtain rfl : a = b := ha
    exact (Bytes.explains_rootTable a).checked (map_eq_error_iff.mp h)
  | tableAt i =>
    obtain rfl : a = b := ha
    exact (Bytes.explains_ofPosition a _).checked (map_eq_error_iff.mp h)
  | wrap =>
    obtain rfl : a = b := ha
    exact (explains_ofBuffer a).checked (map_eq_error_iff.mp h)
  | inspect =>
    obtain rfl : a = b := ha
    exact fault_of_report (map_eq_error_iff.mp h)
  | viewAs type =>
    obtain rfl : a.buffer = b := ha.buffer
    exact (type.explains_ofTable a.buffer a.position).checked (map_eq_error_iff.mp h)
  | vtable =>
    obtain rfl : a.buffer = b := ha.buffer
    exact (a.buffer.explains_vtable a.position).checked (map_eq_error_iff.mp h)
  | get type slot default =>
    obtain rfl : a.buffer = b := ha.buffer
    exact (a.buffer.explains_get a.position slot type default).checked (map_eq_error_iff.mp h)
  | getTable slot =>
    obtain rfl : a.buffer = b := ha.buffer
    exact (a.buffer.explains_getTable a.position slot).checked h
  | getRecord type slot => exact (Table.LiesIn.explains_getRecord ha type slot).checked h
  | getString slot =>
    obtain rfl : a.buffer = b := ha.buffer
    exact (a.buffer.explains_getString a.position slot).checked (map_eq_error_iff.mp h)
  | getBytes slot =>
    obtain rfl : a.buffer = b := ha.buffer
    exact (a.buffer.explains_getBytes a.position slot).checked (map_eq_error_iff.mp h)
  | contentAs type => exact (Table.LiesIn.explains_getRecord ha type 2).checked h
  | content => exact Table.LiesIn.fault_of_content ha (map_eq_error_iff.mp h)
  | _ => cases h

/-- **A chain of reads fails with a fault of the buffer it starts from**, if it fails for its
bytes. -/
theorem Chain.fault_of_run {k l : Kind} {a : k.Value} (chain : Chain k l)
    (ha : b.obtained.Holds k a)
    (h : chain.run a = .error (.wire fault)) : b.Fault fault := by
  induction chain with
  | nil => cases h
  | cons call rest ih =>
    rcases bind_eq_error_iff.mp h with hcall | ⟨found, hfound, hrest⟩
    · exact call.fault_of_run ha hcall
    · cases found with
      | none => cases hrest
      | some d => exact ih (call.holds_run ha hfound) hrest

/-! ### Ranges -/

/-- The vtable of the object at `p` would start in front of the buffer. -/
def Bytes.LeadsInFront (b : Bytes) (p : Nat) : Prop :=
  p + 4 ≤ b.length ∧ (p : Int) < b.int32At p

/-- The reference at `p` leads to the very end of the buffer. -/
def Bytes.LeadsToEnd (b : Bytes) (p : Nat) : Prop :=
  p + 4 ≤ b.length ∧ p + b.word32At p = b.length

/-- **What is true of a range that an error names.** The error tells the length of the buffer, and
the range leaves the buffer unless it is that of a reference to a vtable in front of the buffer, or
it stands for a reference that leads to the very end. -/
theorem Chain.outOfBounds_names {k : Kind} {chain : Chain .bytes k} {p size length : Nat}
    (h : chain.run b = .error (.wire (.outOfBounds p size length))) :
    length = b.length ∧
      (b.length < p + size ∨ size = 4 ∧ b.LeadsInFront p ∨
        size = b.word32At p ∧ b.LeadsToEnd p) := by
  have hfault : b.Fault (.outOfBounds p size length) := chain.fault_of_run (k := .bytes) rfl h
  cases hfault with
  | outside hout => exact ⟨rfl, .inl hout⟩
  | vtableInFront hin hfront => exact ⟨rfl, .inr (.inl ⟨rfl, hin, hfront⟩)⟩
  | leadsOut hin hout =>
    rcases Nat.lt_or_eq_of_le hout with hlt | heq
    · exact ⟨rfl, .inl hlt⟩
    · exact ⟨rfl, .inr (.inr ⟨rfl, hin, heq.symm⟩)⟩

namespace Table

/-- An object is always refused so where its vtable would start in front of the buffer. -/
theorem ofPosition_of_leadsInFront {p : Nat} (h : b.LeadsInFront p) :
    ofPosition b p = .error (.outOfBounds p 4 b.length) := by
  obtain ⟨hin, hfront⟩ := h
  obtain ⟨reference, href, hvalue⟩ := exists_readScalar_i32 hin
  refine map_eq_error_iff.mpr (bind_eq_error_iff.mpr (.inr ⟨reference, href, ?_⟩))
  refine bind_eq_error_iff.mpr (.inl (ensure_eq_error_iff.mpr ⟨fun hnonneg => ?_, rfl⟩))
  rw [hvalue] at hnonneg
  exact absurd (Int.le_of_sub_nonneg hnonneg) (Int.not_le.mpr hfront)

/-- A reference is always refused so where it leads to the very end of the buffer. -/
theorem follow_of_leadsToEnd {t : Table} {slot : UInt16} {p : Nat}
    (hp : t.locateField slot 4 = .ok (some p)) (h : t.buffer.LeadsToEnd p) :
    t.follow slot = .error (.outOfBounds p (t.buffer.word32At p) t.buffer.length) := by
  obtain ⟨hin, hend⟩ := h
  obtain ⟨distance, hdistance, hvalue⟩ := exists_readScalar_u32 hin
  refine bind_eq_error_iff.mpr (.inr ⟨some p, hp, ?_⟩)
  refine bind_eq_error_iff.mpr (.inr ⟨distance, hdistance, ?_⟩)
  rw [hvalue]
  refine bind_eq_error_iff.mpr (.inl (ensure_eq_error_iff.mpr ⟨?_, rfl⟩))
  rw [hend]
  exact Nat.lt_irrefl _

end Table

/-- The reference of an object to its vtable leads six bytes in front of the buffer. -/
def vtableInFront : Bytes := [4, 0, 0, 0, 10, 0, 0, 0]

/-- An object whose slot 0 refers to the end of the buffer, four bytes behind it. -/
def endInSlot : Bytes :=
  [12, 0, 0, 0, 6, 0, 8, 0, 4, 0, 0, 0, 8, 0, 0, 0, 8, 0, 0, 0, 0, 0, 0, 0]

theorem Chain.outOfBounds_names_endInSlot :
    ((cons .rootTable nil).run vtableInFront = .error (.wire (.outOfBounds 4 4 8)) ∧
      4 + 4 ≤ vtableInFront.length ∧ vtableInFront.LeadsInFront 4) ∧
    ((cons .rootTable (cons (.getString 0) nil)).run endInSlot
        = .error (.wire (.outOfBounds 16 8 24)) ∧
      16 + 8 ≤ endInSlot.length ∧ endInSlot.LeadsToEnd 16) := by
  have hfront : (cons .rootTable nil).run vtableInFront = .error (.wire (.outOfBounds 4 4 8)) := rfl
  have hend : (cons .rootTable (cons (.getString 0) nil)).run endInSlot
      = .error (.wire (.outOfBounds 16 8 24)) := rfl
  obtain ⟨-, hout | ⟨-, hleads⟩ | ⟨hsize, -⟩⟩ := outOfBounds_names hfront
  · exact absurd hout (by decide)
  · obtain ⟨-, hout | ⟨hsize, -⟩ | ⟨-, hleads'⟩⟩ := outOfBounds_names hend
    · exact absurd hout (by decide)
    · exact absurd hsize (by decide)
    · exact ⟨⟨hfront, by decide, hleads⟩, hend, by decide, hleads'⟩
  · exact absurd hsize (by decide)

end EnvelopeWire
