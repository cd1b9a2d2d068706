import EnvelopeWire.Proofs.Reading.Envelope
import EnvelopeWire.Proofs.Reading.Machine
import EnvelopeWire.Report.Basic

/-!
# Envelopes in machine words

Records, the accessors of an envelope and the report on it, read step by step as in
`EnvelopeWire.Proofs.Reading.Machine`. An accessor drops the error of its read, so that what it
gives is the same in a buffer of any length.

* `Machine.content_follows`: tag and content interpreted together.
* `Machine.report_follows`: the report on the envelope at the root of a buffer.
-/

namespace EnvelopeWire

theorem checked_eq_ok_iff {α : Type} {x : Except WireError α} {a : α} :
    Envelope.checked x = .ok a ↔ x = .ok a := by
  cases x with
  | error e => exact ⟨nofun, nofun⟩
  | ok b =>
    constructor
    · rintro ⟨⟩
      rfl
    · rintro ⟨⟩
      rfl

namespace Machine

variable {ε : Type}

/-! ### Records -/

/-- A table viewed as a destination. -/
def viewDestination (t : Table) : Machine WireError Destination := do
  let _ ← get t .u8 0 (0 : UInt8)
  let _ ← getString t 1
  return { table := t }

/-- A table viewed as an error. -/
def viewErrorContent (t : Table) : Machine WireError ErrorContent := do
  let _ ← get t .u16 0 (0 : UInt16)
  let _ ← getString t 1
  let _ ← getString t 2
  return { table := t }

/-- A table viewed as an envelope. -/
def viewEnvelope (t : Table) : Machine WireError Envelope := do
  let _ ← getRecord viewDestination t 0
  let _ ← get t .u8 1 (0 : UInt8)
  let _ ← getTable t 2
  let _ ← get t .i32 3 (0 : Int32)
  return { table := t }

/-- The envelope at the root of a buffer. -/
def wrap (buffer : Bytes) : Machine WireError Envelope := do
  viewEnvelope (← rootTable buffer)

/-! ### Accessors -/

/-- The scalar in `slot`, or `default` where it cannot be read. -/
def scalarOr (t : Table) (type : ScalarType) (slot : UInt16) (default : type.Value) :
    Machine ε type.Value := do
  return (← outcome (get t type slot default)).toOption.getD default

/-- The string that `slot` refers to, or nothing where it cannot be read. -/
def string? (t : Table) (slot : UInt16) : Machine ε (Option String) := do
  return (← outcome (getString t slot)).toOption.join

/-- The byte of the kind of a destination. -/
def kindByte (d : Destination) : Machine ε UInt8 := scalarOr d.table .u8 0 (0 : UInt8)

/-- The kind of a destination, unless its byte is unknown. -/
def kind (d : Destination) : Machine ε (Option DestinationKind) := do
  return (DestinationKind.ofByte (← kindByte d)).toOption

/-- The name of a destination. -/
def target (d : Destination) : Machine ε (Option String) := string? d.table 1

/-- The number of an error. -/
def code (e : ErrorContent) : Machine ε UInt16 := scalarOr e.table .u16 0 (0 : UInt16)

/-- The kind of error. -/
def category (e : ErrorContent) : Machine ε (Option String) := string? e.table 1

/-- What went wrong. -/
def reason (e : ErrorContent) : Machine ε (Option String) := string? e.table 2

/-- Where an envelope goes. -/
def destination (e : Envelope) : Machine ε (Option Destination) := do
  return (← outcome (getRecord viewDestination e.table 0)).toOption.join

/-- The tag of the content of an envelope. -/
def contentType (e : Envelope) : Machine ε UInt8 := scalarOr e.table .u8 1 (0 : UInt8)

/-- The number of an envelope. -/
def id (e : Envelope) : Machine ε Int32 := scalarOr e.table .i32 3 (0 : Int32)

/-- The content of an envelope as its tag says. -/
def content (e : Envelope) : Machine EnvelopeError Content := do
  let tag ← contentType e
  match ← checked (getRecord pure e.table 2) with
  | none =>
    if tag = 0 then
      return .none
    else
      throw (.missingContent tag)
  | some table =>
    match ContentType.ofByte tag with
    | .ok .none => throw .untaggedContent
    | .ok .noMessage => return .noMessage
    | .ok .success => return .success
    | .ok .error => return .error (← checked (viewErrorContent table))
    | .error _ => return .other tag table

/-! ### Reports -/

/-- A slot of the vtable with the offset of its field. -/
def slotReport (entry : UInt16 × UInt16) : Machine ε SlotReport := do
  return {
    slot := entry.1
    name := slotName entry.1
    voffset := ← voffset entry.1
    fieldOffset := entry.2 }

/-- What is said about a destination. -/
def destinationReport (d : Destination) : Machine ε DestinationReport := do
  return { kind := ← kind d, kindByte := ← kindByte d, target := ← target d }

/-- What is said about the destination of an envelope. -/
def destinationReport? : Option Destination → Machine ε (Option DestinationReport)
  | none => return none
  | some d => return some (← destinationReport d)

/-- What is said about a content whose tag goes with it. -/
def contentReport : Content → Machine ε ContentReport
  | .none => return .none
  | .noMessage => return .noMessage
  | .success => return .success
  | .error e => return .error (← code e) (← category e) (← reason e)
  | .other tag table => return .other tag table.position

/-- What is said about the content when reading it gives `content`. -/
def contentReportOf : Except EnvelopeError Content → Machine EnvelopeError ContentReport
  | .ok content => contentReport content
  | .error e => if e.isMalformed then throw e else return .invalid e

/-- The report on the envelope at the root of a buffer. -/
def report (buffer : Bytes) : Machine EnvelopeError Report := do
  let e ← checked (wrap buffer)
  let v ← checked (vtable e.table)
  let slots ← (← presentSlots v).mapM slotReport
  let destination ← destinationReport? (← destination e)
  let content ← contentReportOf (← outcome (content e))
  return {
    bufferLength := buffer.length
    rootPosition := e.table.position
    vtable := {
      position := v.position
      length := v.length
      objectLength := ← objectLength v
      slots := slots }
    destination := destination
    contentType := ← contentType e
    content := content
    id := ← id e }

/-! ### Reads of records -/

section Records

variable {size : Nat} {t : Table} (hsize : size < maxLength)

/-- A reference leads to an object of the same buffer. -/
private theorem buffer_of_getTable {u : Table} {slot : UInt16}
    (h : t.getTable slot = .ok (some u)) :
    u.buffer = t.buffer := by
  obtain ⟨-, -, heq⟩ := getTable_eq_ok_iff.mp h
  obtain ⟨p, -, rfl⟩ := Option.map_eq_some_iff.mp heq.symm
  rfl

/-- A table behind a reference is in the same buffer. -/
private theorem length_of_getTable {size : Nat} {u : Table} {slot : UInt16}
    (h : t.buffer.length ≤ size) (hu : t.getTable slot = .ok (some u)) :
    u.buffer.length ≤ size := by
  rw [buffer_of_getTable hu]
  exact h

/-- A record that an object refers to is in the same buffer. -/
private theorem exists_of_getRecord {ρ : Type} [Record ρ] {r : ρ} {slot : UInt16}
    (h : t.getRecord ρ slot = .ok (some r)) :
    ∃ u : Table, u.buffer = t.buffer ∧ Record.ofTable u = .ok r := by
  obtain ⟨found, hfound, hrest⟩ := bind_eq_ok_iff.mp h
  cases found with
  | none => cases hrest
  | some u =>
    obtain ⟨a, ha, heq⟩ := bind_eq_ok_iff.mp hrest
    cases heq
    exact ⟨u, buffer_of_getTable hfound, ha⟩

theorem table_of_destination {d : Destination} (h : Record.ofTable t = .ok d) : d.table = t := by
  rw [(destination_eq_ok_iff.mp h).2.2]

theorem table_of_envelope {e : Envelope} (h : Record.ofTable t = .ok e) : e.table = t := by
  rw [(envelope_eq_ok_iff.mp h).2.2]

theorem table_of_errorContent {e : ErrorContent} (h : Record.ofTable t = .ok e) : e.table = t := by
  obtain ⟨_, -, h⟩ := bind_eq_ok_iff.mp h
  obtain ⟨_, -, h⟩ := bind_eq_ok_iff.mp h
  obtain ⟨_, -, h⟩ := bind_eq_ok_iff.mp h
  cases h
  rfl

/-- The destination of an envelope is in the same buffer. -/
private theorem buffer_of_destination {e : Envelope} {d : Destination} (h : d ∈ e.destination) :
    d.table.buffer = e.table.buffer := by
  rw [Option.mem_def, Envelope.destination, Option.join_eq_some_iff] at h
  obtain ⟨u, hbuffer, hu⟩ := exists_of_getRecord (toOption_eq_some_iff.mp h)
  rw [table_of_destination hu, hbuffer]

/-- The table of a content, if it keeps one, is in a buffer of no more than so many bytes. -/
def SoundContent (size : Nat) : Content → Prop
  | .error e => e.table.buffer.length ≤ size
  | .other _ t => t.buffer.length ≤ size
  | .none | .noMessage | .success => True

private theorem contentAs_table (e : Envelope) : e.contentAs Table = e.table.getTable 2 :=
  getRecord_table e.table 2

/-- The table of a content is in a buffer that is no longer than that of the envelope. -/
private theorem soundContent_of_content {e : Envelope} {c : Content}
    (h : e.table.buffer.length ≤ size) (hc : e.content = .ok c) : SoundContent size c := by
  obtain ⟨found, hfound, hrest⟩ := bind_eq_ok_iff.mp hc
  rw [checked_eq_ok_iff, contentAs_table] at hfound
  cases found with
  | none =>
    dsimp only at hrest
    split at hrest <;> cases hrest
    trivial
  | some u =>
    have hu := length_of_getTable h hfound
    dsimp only at hrest
    generalize ContentType.ofByte e.contentType = type at hrest
    rcases type with _ | _ | _ | _ | _
    case ok.error =>
      obtain ⟨r, hr, heq⟩ := bind_eq_ok_iff.mp hrest
      cases heq
      rw [SoundContent, table_of_errorContent (checked_eq_ok_iff.mp hr)]
      exact hu
    case error =>
      cases hrest
      exact hu
    all_goals cases hrest <;> trivial

include hsize

/-- **A reference slot to a record**, whatever the record is. -/
theorem getRecord_follows {ρ : Type} [Record ρ] {view : Table → Machine WireError ρ}
    (hview : ∀ u : Table, u.buffer.length ≤ size →
      Follows (Huge size) (fun _ => true) (view u) (Record.ofTable u))
    (h : t.buffer.length ≤ size) (slot : UInt16) :
    Follows (Huge size) (fun _ => true) (getRecord view t slot) (t.getRecord ρ slot) := by
  refine (getTable_follows hsize h slot).bind fun found hfound => ?_
  cases found with
  | none => exact .of_eq rfl
  | some u =>
    exact (hview u (length_of_getTable h hfound)).bind fun _ _ => .of_eq rfl

/-- A table is viewed as a destination without trapping. -/
theorem viewDestination_follows (h : t.buffer.length ≤ size) :
    Follows (Huge size) (fun _ => true) (viewDestination t) (Record.ofTable t) :=
  (get_follows hsize h .u8 0 _).bind fun _ _ =>
    (getString_follows hsize h 1).bind fun _ _ => .of_eq rfl

/-- A table is viewed as an error record without trapping. -/
theorem viewErrorContent_follows (h : t.buffer.length ≤ size) :
    Follows (Huge size) (fun _ => true) (viewErrorContent t) (Record.ofTable t) :=
  (get_follows hsize h .u16 0 _).bind fun _ _ =>
    (getString_follows hsize h 1).bind fun _ _ =>
      (getString_follows hsize h 2).bind fun _ _ => .of_eq rfl

/-- A table is viewed as an envelope without trapping. -/
theorem viewEnvelope_follows (h : t.buffer.length ≤ size) :
    Follows (Huge size) (fun _ => true) (viewEnvelope t) (Record.ofTable t) :=
  (getRecord_follows hsize (fun _ => viewDestination_follows hsize) h 0).bind fun _ _ =>
    (get_follows hsize h .u8 1 _).bind fun _ _ =>
      (getTable_follows hsize h 2).bind fun _ _ =>
        (get_follows hsize h .i32 3 _).bind fun _ _ => .of_eq rfl

/-- A buffer is wrapped as an envelope without trapping. -/
theorem wrap_follows {b : Bytes} (h : b.length ≤ size) :
    Follows (Huge size) (fun _ => true) (wrap b) (Envelope.ofBuffer b) := by
  refine (rootTable_follows hsize h).bind fun t ht => ?_
  obtain ⟨-, -, rfl⟩ := rootTable_eq_ok_iff.mp ht
  exact viewEnvelope_follows hsize h

end Records

/-! ### Reads that cannot fail -/

section Accessors

variable {size : Nat} (hsize : size < maxLength)

include hsize

section Slots

variable {t : Table} (h : t.buffer.length ≤ size)

include h

/-- Where a scalar falls back to its default, both readers fall back alike. -/
private theorem scalarOr_eq (type : ScalarType) (slot : UInt16) (default : type.Value) :
    (scalarOr t type slot default : Machine ε type.Value)
      = pure ((t.get type slot default).toOption.getD default) :=
  (get_follows hsize h type slot default).toOption (·.getD default)

/-- Where a string falls back to nothing, both readers fall back alike. -/
private theorem string?_eq (slot : UInt16) :
    (string? t slot : Machine ε (Option String)) = pure (t.getString slot).toOption.join :=
  (getString_follows hsize h slot).toOption Option.join

end Slots

section Destinations

variable {d : Destination} (h : d.table.buffer.length ≤ size)

include h

theorem kindByte_eq : (kindByte d : Machine ε UInt8) = pure d.kindByte :=
  scalarOr_eq hsize h .u8 0 _

theorem kind_eq : (kind d : Machine ε (Option DestinationKind)) = pure d.kind := by
  rw [kind, kindByte_eq hsize h]
  rfl

theorem target_eq : (target d : Machine ε (Option String)) = pure d.target :=
  string?_eq hsize h 1

private theorem destinationReport_eq :
    (destinationReport d : Machine ε DestinationReport) = pure (.ofDestination d) := by
  rw [destinationReport, kind_eq hsize h, kindByte_eq hsize h, target_eq hsize h]
  rfl

end Destinations

section Errors

variable {e : ErrorContent} (h : e.table.buffer.length ≤ size)

include h

theorem code_eq : (code e : Machine ε UInt16) = pure e.code :=
  scalarOr_eq hsize h .u16 0 _

theorem category_eq : (category e : Machine ε (Option String)) = pure e.category :=
  string?_eq hsize h 1

theorem reason_eq : (reason e : Machine ε (Option String)) = pure e.reason :=
  string?_eq hsize h 2

end Errors

variable {e : Envelope} (h : e.table.buffer.length ≤ size)

include h

theorem contentType_eq : (contentType e : Machine ε UInt8) = pure e.contentType :=
  scalarOr_eq hsize h .u8 1 _

theorem id_eq : (id e : Machine ε Int32) = pure e.id :=
  scalarOr_eq hsize h .i32 3 _

theorem destination_eq : (destination e : Machine ε (Option Destination)) = pure e.destination :=
  (getRecord_follows hsize (fun _ => viewDestination_follows hsize) h 0).toOption Option.join

/-- The table of the content of an envelope. -/
private theorem contentTable_follows :
    Follows (Huge size) (fun _ => true) (getRecord pure e.table 2) (e.contentAs Table) :=
  getRecord_follows hsize (fun _ _ => .of_eq rfl) h 2

/-- **The content of an envelope**, tag and table together. -/
theorem content_follows :
    Follows (Huge size) EnvelopeError.isMalformed (content e) e.content := by
  rw [content, contentType_eq hsize h, pure_bind]
  refine (contentTable_follows hsize h).checked.bind fun found hfound => ?_
  cases found with
  | none =>
    dsimp only
    split <;> exact .of_eq rfl
  | some u =>
    rw [checked_eq_ok_iff, contentAs_table] at hfound
    have hu := length_of_getTable h hfound
    dsimp only
    rcases ContentType.ofByte e.contentType with _ | _ | _ | _ | _
    case ok.error =>
      exact (viewErrorContent_follows hsize hu).checked.bind fun _ _ => .of_eq rfl
    all_goals exact .of_eq rfl

end Accessors

/-! ### Reports -/

section Reports

/-- The entries of a vtable are for slots whose place in it is a 16-bit word. -/
private theorem toNat_lt_of_mem_presentFrom {slot : Nat} {bytes : Bytes} {entry : UInt16 × UInt16}
    (hbytes : slot + bytes.length / 2 < 32766) (h : entry ∈ VTable.presentFrom slot bytes) :
    entry.1.toNat < 32766 := by
  fun_induction VTable.presentFrom slot bytes with
  | case1 slot low high rest offset hzero ih =>
    rw [List.length_cons, List.length_cons] at hbytes
    exact ih (by omega) h
  | case2 slot low high rest offset hpresent ih =>
    rw [List.length_cons, List.length_cons] at hbytes
    rcases List.mem_cons.mp h with rfl | hrest
    · rw [UInt16.toNat_ofNat_of_lt' (show slot < 65536 by omega)]
      omega
    · exact ih (by omega) hrest
  | case3 slot bytes hshort => cases h

/-- The report of a slot is the same: the number of a present slot is small enough for its entry. -/
private theorem slotReport_eq {v : VTable} (hv : SoundVTable v) {entry : UInt16 × UInt16}
    (h : entry ∈ v.presentSlots) :
    (slotReport entry : Machine ε SlotReport) = pure (.ofEntry entry) := by
  have hlength := hv.length_lt
  have hslot : entry.1.toNat < 32766 :=
    toNat_lt_of_mem_presentFrom (by rw [List.length_drop]; omega) h
  rw [slotReport, voffset_eq hslot]
  rfl

/-- Steps that cannot fail do not fail one after the other. -/
private theorem mapM_eq_pure {α β : Type} {f : α → Machine ε β} {g : α → β} {l : List α}
    (h : ∀ a ∈ l, f a = pure (g a)) : l.mapM f = pure (l.map g) := by
  induction l with
  | nil => rfl
  | cons a l ih =>
    obtain ⟨hhead, htail⟩ := List.forall_mem_cons.mp h
    rw [List.mapM_cons, hhead, pure_bind, ih htail, pure_bind, List.map_cons]

variable {size : Nat} (hsize : size < maxLength)

include hsize

/-- The report of a destination is the same, if there is one. -/
private theorem destinationReport?_eq {found : Option Destination}
    (h : ∀ d ∈ found, d.table.buffer.length ≤ size) :
    (destinationReport? found : Machine ε (Option DestinationReport))
      = pure (found.map .ofDestination) := by
  cases found with
  | none => rfl
  | some d =>
    rw [destinationReport?, destinationReport_eq hsize (h d rfl)]
    rfl

/-- The report of a content is the same. -/
private theorem contentReport_eq {c : Content} (h : SoundContent size c) :
    (contentReport c : Machine ε ContentReport) = pure (.ofContent c) := by
  cases c with
  | error e =>
    rw [contentReport, code_eq hsize h, category_eq hsize h, reason_eq hsize h]
    rfl
  | _ => rfl

/-- What is said about a content does not tell how its bytes are malformed. -/
private theorem contentReportOf_follows {x : Machine EnvelopeError Content}
    {y : Except EnvelopeError Content} (h : Follows (Huge size) EnvelopeError.isMalformed x y)
    (hy : ∀ c, y = .ok c → SoundContent size c) :
    Follows (Huge size) EnvelopeError.isMalformed (outcome x >>= contentReportOf)
      (ContentReport.ofResult y) := by
  obtain ⟨z, rfl, halike⟩ := h
  change Follows _ _ (contentReportOf z) _
  cases halike with
  | same =>
    cases y with
    | ok c => exact .of_eq (contentReport_eq hsize (hy c rfl))
    | error e =>
      rw [contentReportOf, ContentReport.ofResult]
      split <;> exact .of_eq rfl
  | malformed hhuge he he' =>
    rw [contentReportOf, ContentReport.ofResult, if_pos he, if_pos he']
    exact ⟨_, rfl, .malformed hhuge he he'⟩

/-- **The report on an envelope.** -/
theorem report_follows {b : Bytes} (h : b.length ≤ size) :
    Follows (Huge size) EnvelopeError.isMalformed (report b) (Report.ofBuffer b) := by
  refine (wrap_follows hsize h).checked.bind fun e he => ?_
  have htable : e.table.buffer.length ≤ size := by
    rw [(ofBuffer_eq_ok_iff.mp (checked_eq_ok_iff.mp he)).2]
    exact h
  refine (vtable_follows hsize htable).checked.bind fun v hv => ?_
  have hsound : SoundVTable v := (soundVTable_of_vtable (checked_eq_ok_iff.mp hv)).1
  rw [presentSlots_eq hsound, ofExcept_bind, mapM_eq_pure fun _ => slotReport_eq hsound, pure_bind,
    destination_eq hsize htable, pure_bind,
    destinationReport?_eq hsize (fun d hd => by rw [buffer_of_destination hd]; exact htable),
    pure_bind, ← bind_assoc]
  refine (contentReportOf_follows hsize (content_follows hsize htable) fun c hc =>
    soundContent_of_content htable hc).bind fun content _ => ?_
  rw [objectLength_eq hsound, ofExcept_bind, contentType_eq hsize htable, pure_bind,
    id_eq hsize htable]
  exact .of_eq rfl

end Reports

end Machine

end EnvelopeWire
