import EnvelopeWire.Proofs.Builder.VTables
import EnvelopeWire.Proofs.Builder.Writes

/-!
# Which calls are refused

Whether a call is refused, and for breaking which rule, is known beforehand from the calls made
since the last reset and what they replied. `History.forecast` works it out without looking at the
builder, of which it is told the number of bytes written only: the rule that the call breaks, if
any, and the number of bytes that it writes before it stops or is done.

As long as these bytes fit under the limit, a builder does what the forecast says. So it never
subtracts more than there is, never reaches outside its cells and never loses bits of a number:
those would be failures of their own.

* `History.Describes.meets`: a call does what the forecast says.
* `Builder.fails_iff_misuse`: after any calls, a call fails exactly for the misuse foreseen.
-/

namespace EnvelopeWire

/-! ### Forecasts -/

/-- What becomes of a call: the rule that it breaks, if any, and the number of bytes that it writes
until then. -/
structure Forecast where
  misuse : Option Misuse
  written : Nat
deriving DecidableEq, Repr

namespace Forecast

/-- The call goes through. -/
def done : Forecast := { misuse := none, written := 0 }

/-- The call is refused. -/
def stop (cause : Misuse) : Forecast := { misuse := some cause, written := 0 }

/-- The call goes on if `p`, and is refused otherwise. -/
def check (p : Prop) [Decidable p] (cause : Misuse) (rest : Forecast) : Forecast :=
  if p then rest else stop cause

/-- The call writes `count` bytes and goes on. -/
def write (count : Nat) (rest : Forecast) : Forecast :=
  { rest with written := count + rest.written }

/-- A reference to `target` that is put in front of `used` bytes. The target has to lie in what is
written once the padding is. -/
def reference (used : Nat) (target : Offset) : Forecast :=
  write (padding (used + 4) 4) <|
    check (0 < target.value ∧ target.value ≤ used + padding (used + 4) 4)
      (.danglingOffset target.value) <|
    write 4 done

end Forecast

/-! ### Histories -/

/-- The stage after a call that went through. -/
def Stage.after (stage : Stage) : Call → Stage
  | .startObject count => building count
  | .endObject | .reset => idle
  | .finish root => finished root
  | .pushSlot _ _ _ _ | .pushSlotOffset _ _ | .createString _ | .createByteVector _
  | .finishedData | .takeFinishedData => stage

/-- The widest alignment that was asked for, after a call that went through. -/
def Call.widest (forceDefaults : Bool) (widest : Nat) : Call → Nat
  | startObject _ => max widest 8
  | pushSlot type _ value default =>
    if type.agrees value default && !forceDefaults then widest else max widest type.width
  | pushSlotOffset _ _ | endObject | createString _ | createByteVector _ | finish _ => max widest 4
  | reset => 1
  | finishedData | takeFinishedData => widest

/-- What calls and replies since the last reset tell of what may be called next. -/
structure History where
  forceDefaults : Bool
  account : Account
  stage : Stage
  /-- The widest alignment that was asked for. -/
  minAlign : Nat

namespace History

/-- The history that a sequence of calls with their replies makes. -/
def ofCalls (forceDefaults : Bool) (calls : List Call) (replies : List Reply) : History where
  forceDefaults := forceDefaults
  account := Account.empty.afterCalls forceDefaults calls replies
  stage := calls.foldl Stage.after .idle
  minAlign := calls.foldl (Call.widest forceDefaults) 1

/-- A call that needs that no object is open and the buffer is not finished. -/
def whenIdle (h : History) (op : Operation) (rest : Forecast) : Forecast :=
  match h.stage with
  | .idle => rest
  | .building _ => .stop (.objectOpen op)
  | .finished _ => .stop (.alreadyFinished op)

/-- A call that needs an open object. -/
def whenBuilding (h : History) (op : Operation) (rest : UInt16 → Forecast) : Forecast :=
  match h.stage with
  | .building count => rest count
  | .idle => .stop (.noOpenObject op)
  | .finished _ => .stop (.alreadyFinished op)

/-- A call that needs a finished buffer. -/
def whenFinished (h : History) (op : Operation) : Forecast :=
  match h.stage with
  | .finished _ => .done
  | .idle | .building _ => .stop (.notFinished op)

/-- A call that needs an open object with an unwritten slot number `slot`. -/
def whenFree (h : History) (op : Operation) (slot : UInt16) (rest : Forecast) : Forecast :=
  h.whenBuilding op fun count =>
    .check (slot < count) (.slotOutOfRange op slot.toNat count.toNat) <|
    .check (∀ f ∈ h.account.fields, f.slot ≠ slot) (.slotWrittenTwice op slot.toNat) rest

/-- **What becomes of a call** when `used` bytes are written. -/
def forecast (h : History) (used : Nat) : Call → Forecast
  | .startObject count =>
    match h.stage with
    | .idle =>
      .check (count.toNat ≤ maxFields) (.tooManyFields count.toNat) <|
        .write (padding used 8) .done
    | .building _ => .stop .nestedObject
    | .finished _ => .stop (.alreadyFinished .startObject)
  | .pushSlot type slot value default =>
    h.whenFree .pushSlot slot <|
      if type.agrees value default && !h.forceDefaults then .done
      else .write (padding (used + type.width) type.width + type.width) .done
  | .pushSlotOffset slot target => h.whenFree .pushSlotOffset slot (.reference used target)
  | .endObject =>
    h.whenBuilding .endObject fun _ =>
      .write (padding (used + 4) 4) <|
      .write 4 <|
      .check (objectLength h.account.fields ≤ 65535)
        (.objectTooLarge (objectLength h.account.fields)) <|
      -- A vtable is written only where no object closed so far has the same.
      if (Account.vtablesOf h.account.items).contains (vtableOf h.account.fields) then .done
      else .write (4 + 2 * covered h.account.fields) .done
  | .createString text =>
    h.whenIdle .createString <|
      .write (padding (used + ((utf8 text).length + 5)) 4 + ((utf8 text).length + 5)) .done
  | .createByteVector bytes =>
    h.whenIdle .createByteVector <|
      .write (padding (used + (bytes.length + 4)) 4 + (bytes.length + 4)) .done
  | .finish root =>
    h.whenIdle .finish <|
      .write (padding (used + 4) h.minAlign) <|
      .reference (used + padding (used + 4) h.minAlign) root
  | .reset => .done
  | .finishedData => h.whenFinished .finishedData
  | .takeFinishedData => h.whenFinished .takeFinishedData

end History

/-! ### Steps that do what is foreseen -/

/-- From `used` bytes written, `x` does what the forecast says, provided that there is room. -/
def Forecast.Meets {α : Type} (f : Forecast) (used : Nat) (size : α → Nat) (x : Except Failure α) :
    Prop :=
  used + f.written ≤ maxBufferSize →
    match f.misuse with
    | some cause => x = .error (.misuse cause)
    | none => ∃ a, x = .ok a ∧ size a = used + f.written

namespace Forecast

variable {α β : Type} {size : α → Nat} {used count : Nat} {x : Except Failure α} {f : Forecast}

private theorem meets_done {a : α} (hx : x = .ok a) (hsize : size a = used) :
    done.Meets used size x :=
  fun _ => ⟨a, hx, hsize⟩

/-- A forecast of misuse is met by that misuse. -/
private theorem meets_stop {cause : Misuse} (hx : x = .error (.misuse cause)) :
    (stop cause).Meets used size x :=
  fun _ => hx

/-- A rule that is checked: what follows is forecast where it holds, its misuse where not. -/
private theorem meets_check {p : Prop} [Decidable p] {cause : Misuse}
    (hyes : p → f.Meets used size x) (hno : ¬p → x = .error (.misuse cause)) :
    (check p cause f).Meets used size x := by
  by_cases h : p
  · rw [check, if_pos h]
    exact hyes h
  · rw [check, if_neg h]
    exact meets_stop (hno h)

/-- Bytes that are written: what follows is forecast from where they end. -/
private theorem meets_write {y : Except Failure β} {next : β → Except Failure α}
    (hy : used + count ≤ maxBufferSize → ∃ b, y = .ok b)
    (hnext : ∀ b, y = .ok b → f.Meets (used + count) size (next b)) :
    (write count f).Meets used size (y >>= next) := by
  intro hroom
  have hsum : used + (write count f).written = used + count + f.written :=
    (Nat.add_assoc _ _ _).symm
  rw [hsum] at hroom ⊢
  obtain ⟨b, hb⟩ := hy (by omega)
  rw [hb]
  exact hnext b hb hroom

/-- A result that is turned into another one is forecast as before. -/
private theorem Meets.bind_ok {size' : β → Nat} {g : α → β} (h : f.Meets used size x)
    (hsize : ∀ a, size' (g a) = size a) : f.Meets used size' (x >>= fun a => .ok (g a)) := by
  intro hroom
  have hx := h hroom
  cases hmisuse : f.misuse with
  | some cause =>
    rw [hmisuse] at hx
    rw [show x = .error (.misuse cause) from hx]
    rfl
  | none =>
    rw [hmisuse] at hx
    obtain ⟨a, ha, hsize'⟩ := hx
    exact ⟨g a, by rw [ha]; rfl, (hsize a).trans hsize'⟩

end Forecast

/-! ### The steps of a draft -/

namespace Draft

variable {d d' : Draft}

/-- Bytes are put where they fit. -/
private theorem exists_put {bytes : Bytes} (h : d.used + bytes.length ≤ maxBufferSize) :
    ∃ d', d.put bytes = .ok d' :=
  ⟨_, put_eq_ok_iff.mpr ⟨h, rfl⟩⟩

private theorem exists_pad {size alignment : Nat}
    (h : d.used + padding (d.used + size) alignment ≤ maxBufferSize) :
    ∃ d', d.pad size alignment = .ok d' :=
  exists_put (d := d.noteAlign alignment) (by rwa [List.length_replicate])

/-- Aligned bytes are put where they and their padding fit. -/
private theorem exists_putAligned {bytes : Bytes} {alignment : Nat}
    (h : d.used + (padding (d.used + bytes.length) alignment + bytes.length) ≤ maxBufferSize) :
    ∃ d', d.putAligned bytes alignment = .ok d' :=
  exists_put (d := d.noteAlign alignment) (by
    rw [List.length_append, List.length_replicate, Nat.add_comm bytes.length]
    exact h)

/-- A vector takes its bytes, four for their count, and one for the zero byte behind a string. -/
theorem length_vectorBytes (bytes : Bytes) (terminated : Bool) :
    (vectorBytes bytes terminated).length = bytes.length + (4 + terminated.toNat) := by
  simp only [vectorBytes, List.length_append, ScalarType.length_encode, ScalarType.width,
    List.length_replicate]
  omega

/-- A vector is put with its count and padding. -/
private theorem meets_putVector {α : Type} {size : α → Nat} {f : Forecast} (bytes : Bytes)
    (terminated : Bool) {next : Draft → Except Failure α}
    (hnext : ∀ d', d'.used = d.used + (padding (d.used + (bytes.length + (4 + terminated.toNat))) 4
        + (bytes.length + (4 + terminated.toNat))) → f.Meets d'.used size (next d')) :
    (Forecast.write (padding (d.used + (bytes.length + (4 + terminated.toNat))) 4
      + (bytes.length + (4 + terminated.toNat))) f).Meets d.used size
      (d.putVector bytes terminated >>= next) := by
  have hlength := length_vectorBytes bytes terminated
  refine Forecast.meets_write (fun hroom => ?_) fun d' hput => ?_
  · rw [putVector, (ensure_eq_ok_iff (u := ())).mpr (by omega)]
    exact exists_putAligned (by rw [hlength]; exact hroom)
  · obtain ⟨-, -, hput⟩ := bind_eq_ok_iff.mp hput
    have hused := used_of_putAligned hput
    rw [hlength, Nat.add_assoc] at hused
    rw [← hused]
    exact hnext d' hused

/-- A reference is put, or refused when its target is not yet written. -/
private theorem meets_putReference {α : Type} {size : α → Nat} (target : Offset)
    {next : Draft → Except Failure α}
    (hnext : ∀ d', d.putReference target = .ok d' → ∃ a, next d' = .ok a ∧ size a = d'.used) :
    (Forecast.reference d.used target).Meets d.used size (d.putReference target >>= next) := by
  rw [putReference, bind_assoc]
  refine Forecast.meets_write exists_pad fun p hpad => ?_
  have hused := used_of_pad hpad
  rw [← hused, bind_assoc]
  refine Forecast.meets_check (fun htarget => ?_) fun hno => ?_
  · rw [(ensure_eq_ok_iff (u := ())).mpr htarget]
    change Forecast.Meets _ _ _ (p.put _ >>= next)
    have hlength := length_littleEndian 4 (p.used + 4 - target.value)
    refine Forecast.meets_write (fun hroom => exists_put (by omega)) fun d' hput => ?_
    have hput' : d.putReference target = .ok d' :=
      putReference_eq_ok_iff.mpr ⟨p, hpad, htarget.1, htarget.2, hput⟩
    obtain ⟨a, ha, hsize⟩ := hnext d' hput'
    refine Forecast.meets_done ha ?_
    rw [hsize, used_of_put hput, hlength]
  · rw [ensure_eq_error_iff.mpr ⟨hno, rfl⟩]
    rfl

end Draft

/-- Linking a vtable writes it where no object before has the same. -/
private theorem Account.Shares.meets_linkVTable {a : Account} {closed : Nat} {d : Draft}
    {fields : List Field} (h : a.Shares closed d) (hv : d.VTablesWritten)
    (hcovered : covered fields ≤ maxFields) {α : Type} {size : α → Nat}
    {next : Draft → Except Failure α}
    (hnext : ∀ d', ∃ result, next d' = .ok result ∧ size result = d'.used) :
    (if (vtablesOf a.items).contains (vtableOf fields) then Forecast.done
      else .write (4 + 2 * covered fields) .done).Meets (d.used + 4) size
      (d.linkVTable (d.used + 4) (vtableOf fields) >>= next) := by
  have hreference (place : Nat) := length_vtableReference place (d.used + 4)
  rw [Draft.linkVTable]
  cases hfind : d.findVTable (vtableOf fields) with
  | some place =>
    rw [if_pos (List.contains_iff_mem.mpr (h.mem_of_findVTable hv hcovered hfind))]
    intro hroom
    have hfits : d.used + (vtableReference place (d.used + 4)).length ≤ maxBufferSize := by
      rw [hreference]
      exact hroom
    obtain ⟨d', hput⟩ :=
      Draft.exists_put (d := { d with vtablesReused := d.vtablesReused + 1 }) hfits
    have hused := Draft.used_of_put hput
    rw [hreference] at hused
    obtain ⟨result, hresult, hsize⟩ := hnext d'
    refine ⟨result, ?_, hsize.trans hused⟩
    change (Draft.put _ _ >>= next) = _
    rw [hput]
    exact hresult
  | none =>
    rw [if_neg fun hmem => h.not_mem_of_findVTable hfind (List.contains_iff_mem.mp hmem)]
    refine Forecast.meets_write (fun hroom => ?_) fun d' hput => ?_
    · refine Draft.exists_put ?_
      rw [List.length_append, hreference, length_vtableOf]
      change d.used + _ ≤ _
      omega
    · obtain ⟨result, hresult, hsize⟩ := hnext d'
      refine Forecast.meets_done hresult ?_
      rw [hsize, Draft.used_of_put hput, List.length_append, hreference, length_vtableOf]
      change d.used + _ = _
      omega

/-! ### What a history says of a draft -/

section Stages

variable {stage : Stage} {d : Draft}

/-- The stage that a history is in is the phase of the draft. -/
private theorem Stage.Matches.phase_cases (h : stage.Matches d) :
    (stage = .idle ∧ d.phase = .idle) ∨
      (∃ start count, stage = .building count ∧ d.phase = .building start count) ∨
      ∃ root, stage = .finished root ∧ d.phase = .finished := by
  cases stage with
  | idle => exact .inl ⟨rfl, h⟩
  | building count =>
    obtain ⟨start, hphase⟩ := h
    exact .inr (.inl ⟨start, count, rfl, hphase⟩)
  | finished root => exact .inr (.inr ⟨root, rfl, h.1⟩)

/-- Only a stage in which an object is open matches a draft with an open object. -/
theorem Stage.Matches.eq_building (h : stage.Matches d) {start : Nat} {count : UInt16}
    (hphase : d.phase = .building start count) : stage = .building count := by
  obtain ⟨-, hidle⟩ | ⟨start', count', hstage, hbuilding⟩ | ⟨root, -, hfinished⟩ := h.phase_cases
  · cases hphase.symm.trans hidle
  · cases hphase.symm.trans hbuilding
    exact hstage
  · cases hphase.symm.trans hfinished

theorem Stage.Matches.eq_idle (h : stage.Matches d) (hphase : d.phase = .idle) :
    stage = .idle := by
  obtain ⟨hstage, -⟩ | ⟨start, count, -, hbuilding⟩ | ⟨root, -, hfinished⟩ := h.phase_cases
  · exact hstage
  · cases hphase.symm.trans hbuilding
  · cases hphase.symm.trans hfinished

end Stages

/-- A history says of a draft what it needs to know of it. -/
structure History.Describes (h : History) (d : Draft) : Prop where
  account : h.account.Describes d
  shares : ∃ closed, h.account.Shares closed d
  stage : h.stage.Matches d
  minAlign : d.minAlign = h.minAlign
  forceDefaults : d.forceDefaults = h.forceDefaults

namespace History.Describes

variable {h : History} {d : Draft} {α : Type} {size : α → Nat} {f : Forecast}

/-- The rule that no object is open and the buffer is not finished. -/
private theorem meets_whenIdle (hd : h.Describes d) (op : Operation)
    {next : Unit → Except Failure α} (hnext : f.Meets d.used size (next ())) :
    (h.whenIdle op f).Meets d.used size (d.phase.checkIdle op >>= next) := by
  rw [whenIdle]
  obtain ⟨hstage, hphase⟩ | ⟨start, count, hstage, hphase⟩ | ⟨root, hstage, hphase⟩ :=
    hd.stage.phase_cases
  · rw [hstage, hphase]
    exact hnext
  · rw [hstage, hphase]
    exact Forecast.meets_stop rfl
  · rw [hstage, hphase]
    exact Forecast.meets_stop rfl

/-- The rule that an object is open. -/
private theorem meets_whenBuilding (hd : h.Describes d) (op : Operation) {rest : UInt16 → Forecast}
    {x : Except Failure α} (hidle : d.phase = .idle → x = .error (.misuse (.noOpenObject op)))
    (hfinished : d.phase = .finished → x = .error (.misuse (.alreadyFinished op)))
    (hopen : ∀ start count, d.phase = .building start count → (rest count).Meets d.used size x) :
    (h.whenBuilding op rest).Meets d.used size x := by
  rw [whenBuilding]
  obtain ⟨hstage, hphase⟩ | ⟨start, count, hstage, hphase⟩ | ⟨root, hstage, hphase⟩ :=
    hd.stage.phase_cases
  · rw [hstage]
    exact Forecast.meets_stop (hidle hphase)
  · rw [hstage]
    exact hopen start count hphase
  · rw [hstage]
    exact Forecast.meets_stop (hfinished hphase)

/-- The rules for a slot: it is one of the open object, and not written yet. -/
private theorem meets_whenFree (hd : h.Describes d) (op : Operation) (slot : UInt16)
    {next : Unit → Except Failure α} (hnext : f.Meets d.used size (next ())) :
    (h.whenFree op slot f).Meets d.used size (d.phase.checkSlot d.fields op slot >>= next) := by
  refine hd.meets_whenBuilding op ?_ ?_ fun start count hphase => ?_
  · intro hphase
    rw [hphase]
    rfl
  · intro hphase
    rw [hphase]
    rfl
  · have hfields := (hd.account.openObject start count hphase).fields_eq
    rw [hphase, hfields, Phase.checkSlot, bind_assoc]
    refine Forecast.meets_check (fun hslot => ?_) fun hno => ?_
    · rw [(ensure_eq_ok_iff (u := ())).mpr hslot]
      have hmarks : (marks start h.account.fields).all (·.slot != slot) = true ↔
          ∀ f ∈ h.account.fields, f.slot ≠ slot := by
        simp only [List.all_eq_true, bne_iff_ne]
        exact forall_mem_marks (p := (· ≠ slot))
      refine Forecast.meets_check (fun hfresh => ?_) fun hno => ?_
      · change f.Meets _ _ (ensure _ _ >>= _)
        rw [(ensure_eq_ok_iff (u := ())).mpr (hmarks.mpr hfresh)]
        exact hnext
      · change (ensure _ _ >>= _) = _
        rw [ensure_eq_error_iff.mpr ⟨fun hall => hno (hmarks.mp hall), rfl⟩]
        rfl
    · rw [ensure_eq_error_iff.mpr ⟨hno, rfl⟩]
      rfl

/-- The data of a finished buffer can be taken. -/
private theorem meets_whenFinished (hd : h.Describes d) (op : Operation) :
    (h.whenFinished op).Meets d.used (·.2.used)
      (d.phase.checkFinished op >>= fun _ => .ok (Reply.data d.written, d)) := by
  rw [whenFinished]
  obtain ⟨hstage, hphase⟩ | ⟨start, count, hstage, hphase⟩ | ⟨root, hstage, hphase⟩ :=
    hd.stage.phase_cases
  · rw [hstage, hphase]
    exact Forecast.meets_stop rfl
  · rw [hstage, hphase]
    exact Forecast.meets_stop rfl
  · rw [hstage, hphase]
    exact Forecast.meets_done rfl rfl

/-- Closing the open object writes its vtable where no object before it has the same. -/
private theorem meets_closeObject (hd : h.Describes d) {start : Nat} {count : UInt16}
    (hphase : d.phase = .building start count) :
    (Forecast.write (padding (d.used + 4) 4) <|
      .write 4 <|
      .check (objectLength h.account.fields ≤ 65535)
        (.objectTooLarge (objectLength h.account.fields)) <|
      if (Account.vtablesOf h.account.items).contains (vtableOf h.account.fields) then .done
      else .write (4 + 2 * covered h.account.fields) .done).Meets d.used (·.2.used)
        (d.closeObject start) := by
  have hopen := hd.account.openObject start count hphase
  obtain ⟨closed, hshares⟩ := hd.shares
  refine Forecast.meets_write Draft.exists_pad fun p hpad => ?_
  obtain ⟨-, hobject, -, -⟩ := hopen.padded hpad
  rw [← Draft.used_of_pad hpad]
  refine Forecast.meets_write (fun hroom => ⟨(), ensure_eq_ok_iff.mpr hroom⟩) fun _ _ => ?_
  have hdifference : difference (p.used + 4) start = .ok (objectLength h.account.fields) :=
    difference_eq_ok_iff.mpr ⟨by omega, by omega⟩
  rw [hdifference]
  refine Forecast.meets_check (fun hlength => ?_) fun hno => ?_
  · have hvtable := hopen.vtableBytes_eq hpad hlength
    rw [hobject, Nat.add_sub_cancel_left, ← hobject] at hvtable
    change Forecast.Meets _ _ _ (ensure _ _ >>= _)
    rw [(ensure_eq_ok_iff (u := ())).mpr hlength]
    change Forecast.Meets _ _ _ (Builder.vtableBytes _ _ _ >>= _)
    rw [hvtable]
    have hwritten := hd.account.vtablesWritten
    exact (hshares.pad hwritten hpad).meets_linkVTable (hwritten.pad hpad)
      hopen.laidOut.covered_le fun closed => ⟨_, rfl, rfl⟩
  · change (ensure _ _ >>= _) = _
    rw [ensure_eq_error_iff.mpr ⟨hno, rfl⟩]
    rfl

/-- **A call does what the forecast says.** -/
theorem meets (hd : h.Describes d) {call : Call} (hcall : call ≠ .reset) :
    (h.forecast d.used call).Meets d.used (·.2.used) (d.perform call) := by
  cases call with
  | startObject count =>
    rw [forecast, Draft.perform]
    obtain ⟨hstage, hphase⟩ | ⟨start, count', hstage, hphase⟩ | ⟨root, hstage, hphase⟩ :=
      hd.stage.phase_cases
    · rw [hstage, hphase]
      refine Forecast.meets_check (fun hcount => ?_) fun hno => ?_
      · rw [Phase.checkStart, (ensure_eq_ok_iff (u := ())).mpr hcount]
        change Forecast.Meets _ _ _ (d.pad 0 8 >>= _)
        refine Forecast.meets_write (fun hroom => Draft.exists_pad hroom) fun p hpad => ?_
        exact Forecast.meets_done rfl (Draft.used_of_pad hpad)
      · rw [Phase.checkStart, ensure_eq_error_iff.mpr ⟨hno, rfl⟩]
        rfl
    · rw [hstage, hphase]
      exact Forecast.meets_stop rfl
    · rw [hstage, hphase]
      exact Forecast.meets_stop rfl
  | pushSlot type slot value default =>
    refine hd.meets_whenFree .pushSlot slot ?_
    rw [hd.forceDefaults]
    split
    · exact Forecast.meets_done rfl rfl
    · have hlength : (type.encode value).length = type.width := type.length_encode value
      refine Forecast.meets_write (fun hroom => Draft.exists_putAligned (by rwa [hlength]))
        fun p hput => Forecast.meets_done rfl ?_
      have hused := Draft.used_of_putAligned hput
      rwa [hlength, Nat.add_assoc] at hused
  | pushSlotOffset slot target =>
    refine hd.meets_whenFree .pushSlotOffset slot ?_
    exact Draft.meets_putReference target fun p _ => ⟨_, rfl, rfl⟩
  | endObject =>
    refine hd.meets_whenBuilding .endObject ?_ ?_ fun start count hphase => ?_
    · intro hphase
      rw [Draft.perform, hphase]
      rfl
    · intro hphase
      rw [Draft.perform, hphase]
      rfl
    · rw [Draft.perform, hphase]
      exact (hd.meets_closeObject hphase).bind_ok fun _ => rfl
  | createString text =>
    refine hd.meets_whenIdle .createString ?_
    exact Draft.meets_putVector (utf8 text) true fun p hused => Forecast.meets_done rfl rfl
  | createByteVector bytes =>
    refine hd.meets_whenIdle .createByteVector ?_
    exact Draft.meets_putVector bytes false fun p hused => Forecast.meets_done rfl rfl
  | finish root =>
    refine hd.meets_whenIdle .finish ?_
    rw [← hd.minAlign]
    refine Forecast.meets_write Draft.exists_pad fun p hpad => ?_
    rw [← Draft.used_of_pad hpad]
    exact Draft.meets_putReference root fun q _ => ⟨_, rfl, rfl⟩
  | reset => exact absurd rfl hcall
  | finishedData => exact hd.meets_whenFinished .finishedData
  | takeFinishedData => exact hd.meets_whenFinished .takeFinishedData

end History.Describes

/-! ### Runs -/

namespace Stage

variable {d d' : Draft} {stage : Stage}

/-- A call that goes through leads to the stage after it. -/
theorem Matches.perform (h : stage.Matches d) {call : Call} {reply : Reply}
    (hperform : d.perform call = .ok (reply, d')) : (stage.after call).Matches d' := by
  cases Draft.step_of_perform hperform with
  | @startObject _ p => exact ⟨p.used, rfl⟩
  | elided | finishedData | takeFinishedData => exact h
  | pushSlot hcheck hwritten hput =>
    obtain ⟨start, count, hphase, -⟩ := Phase.checkSlot_eq_ok_iff.mp hcheck
    obtain rfl := h.eq_building hphase
    exact ⟨start, (Draft.phase_of_putAligned hput).trans hphase⟩
  | pushSlotOffset hcheck href =>
    obtain ⟨start, count, hphase, -⟩ := Phase.checkSlot_eq_ok_iff.mp hcheck
    obtain rfl := h.eq_building hphase
    obtain ⟨-, -, hput⟩ := Draft.putAligned_of_putReference href
    exact ⟨start, (Draft.phase_of_putAligned hput).trans hphase⟩
  | endObject hphase hclose =>
    obtain ⟨-, -, -, -, -, -, -, -, -, -, rfl⟩ := Draft.closeObject_eq_ok_iff.mp hclose
    rfl
  | createString hidle hput | createByteVector hidle hput =>
    obtain rfl := h.eq_idle hidle
    exact (Draft.stands_of_putVector hput).2.2.trans hidle
  | finish =>
    obtain ⟨-, hle, hphase, hstands⟩ := Draft.stands_of_finish hperform
    exact ⟨hphase, hle, hstands⟩
  | reset => rfl

end Stage

namespace Draft

variable {d d' : Draft} {call : Call} {reply : Reply}

/-- Aligned bytes widen the boundary of the buffer to theirs. -/
theorem minAlign_of_putAligned {bytes : Bytes} {alignment : Nat}
    (h : d.putAligned bytes alignment = .ok d') : d'.minAlign = max d.minAlign alignment := by
  obtain ⟨-, rfl⟩ := put_eq_ok_iff.mp h
  rfl

theorem minAlign_of_pad {size alignment : Nat} (h : d.pad size alignment = .ok d') :
    d'.minAlign = max d.minAlign alignment := by
  obtain ⟨-, rfl⟩ := put_eq_ok_iff.mp h
  rfl

private theorem minAlign_of_linkVTable {object : Nat} {vtable : Bytes}
    (h : d.linkVTable object vtable = .ok d') : d'.minAlign = d.minAlign := by
  rw [linkVTable] at h
  split at h <;>
  · obtain ⟨-, rfl⟩ := put_eq_ok_iff.mp h
    rfl

/-- A call that goes through notes the alignment that it asks for. -/
theorem minAlign_of_perform (hperform : d.perform call = .ok (reply, d')) :
    d'.minAlign = call.widest d.forceDefaults d.minAlign := by
  cases step_of_perform hperform with
  | startObject hidle hfields hpad =>
    exact (minAlign_of_pad hpad :)
  | elided hcheck helided =>
    rw [Call.widest, if_pos helided]
  | pushSlot hcheck hwritten hput =>
    rw [Call.widest, if_neg hwritten]
    exact (minAlign_of_putAligned hput :)
  | pushSlotOffset hcheck href =>
    obtain ⟨-, -, hput⟩ := putAligned_of_putReference href
    exact (minAlign_of_putAligned hput :)
  | endObject hphase hclose =>
    obtain ⟨p, hpad, -, -, -, vtable, -, closed, hlink, -, rfl⟩ := closeObject_eq_ok_iff.mp hclose
    exact (minAlign_of_linkVTable hlink).trans (minAlign_of_pad hpad)
  | createString hidle hput | createByteVector hidle hput =>
    exact minAlign_of_putAligned (putVector_eq_ok_iff.mp hput).2
  | @finish root p q hidle hpad href =>
    obtain ⟨-, -, hput⟩ := putAligned_of_putReference href
    have hp : p.minAlign = d.minAlign := (minAlign_of_pad hpad).trans (Nat.max_self _)
    have hq : q.minAlign = max p.minAlign 4 := minAlign_of_putAligned hput
    rwa [hp] at hq
  | reset | finishedData | takeFinishedData => rfl

/-- An offset that a call gives out is not zero. -/
private theorem place_pos_of_perform {offset : Offset}
    (hperform : d.perform call = .ok (.place offset, d')) : 0 < offset.value := by
  cases step_of_perform hperform with
  | endObject hphase hclose =>
    obtain ⟨p, -, -, -, -, -, -, -, -, rfl, -⟩ := closeObject_eq_ok_iff.mp hclose
    exact Nat.succ_pos _
  | createString hidle hput | createByteVector hidle hput =>
    have hlength := (stands_of_putVector hput).2.1.length_le
    rw [length_vectorBytes] at hlength
    change 0 < d'.used
    omega

/-- None of the offsets that calls give out is zero. -/
private theorem place_pos_of_run {calls : List Call} {replies : List Reply}
    (hrun : d.run calls = .ok (replies, d')) {offset : Offset} (hmem : .place offset ∈ replies) :
    0 < offset.value := by
  induction calls generalizing d replies with
  | nil =>
    cases hrun
    exact absurd hmem List.not_mem_nil
  | cons call calls ih =>
    obtain ⟨reply, e, rest, hperform, hrest, rfl⟩ := run_cons_eq_ok_iff.mp hrun
    rcases List.mem_cons.mp hmem with heq | hmem
    · cases heq
      exact place_pos_of_perform hperform
    · exact ih hrest hmem

/-- A sequence of calls leads to the stage, and the alignment, that follow from the calls. -/
theorem stage_of_run {stage : Stage} {calls : List Call} {replies : List Reply}
    (h : stage.Matches d) (hrun : d.run calls = .ok (replies, d')) :
    (calls.foldl Stage.after stage).Matches d' ∧
      d'.minAlign = calls.foldl (Call.widest d.forceDefaults) d.minAlign := by
  induction calls generalizing d stage replies with
  | nil =>
    cases hrun
    exact ⟨h, rfl⟩
  | cons call calls ih =>
    obtain ⟨reply, e, rest, hperform, hrest, rfl⟩ := run_cons_eq_ok_iff.mp hrun
    obtain ⟨hstage, halign⟩ := ih (h.perform hperform) hrest
    refine ⟨hstage, ?_⟩
    rw [halign, forceDefaults_of_perform hperform, minAlign_of_perform hperform]
    rfl

end Draft

/-- **A history describes what its calls have made.** -/
theorem History.describes_ofCalls {forceDefaults : Bool} {calls : List Call} {replies : List Reply}
    {d : Draft} (hrun : (Draft.empty forceDefaults).run calls = .ok (replies, d)) :
    (History.ofCalls forceDefaults calls replies).Describes d := by
  have hidle : Stage.idle.Matches (Draft.empty forceDefaults) := rfl
  obtain ⟨hstage, halign⟩ := Draft.stage_of_run hidle hrun
  exact
    { account := (Account.describes_empty _).run hrun
      shares := ⟨_, (Account.Shares.empty _).run (Account.describes_empty _) hrun⟩
      stage := hstage
      minAlign := halign
      forceDefaults := Draft.forceDefaults_of_run hrun }

/-! ### Builders -/

/-- All that a builder keeps lies in what is written: the vtables, the start of the open object, and
its fields in front of that start. -/
structure Builder.InRange (b : Builder) : Prop where
  used_le : b.used ≤ maxBufferSize
  vtable_le : ∀ place ∈ b.vtables, place ≤ b.used
  start_le : ∀ start count, b.phase = .building start count → start ≤ b.used
  field_le : ∀ start count, b.phase = .building start count →
    ∀ mark ∈ b.fields, start ≤ mark.offset ∧ mark.offset ≤ b.used

/-- The fields are marked where they stand. -/
private theorem bounds_of_mem_marks {start : Nat} {fields : List Field} {mark : FieldMark}
    (h : mark ∈ marks start fields) :
    start ≤ mark.offset ∧ mark.offset ≤ start + extent fields := by
  induction fields with
  | nil => exact absurd h List.not_mem_nil
  | cons f fields ih =>
    rcases List.mem_cons.mp h with rfl | hmem
    · exact ⟨Nat.le_add_right _ _, Nat.le_refl _⟩
    · obtain ⟨hle, hle'⟩ := ih hmem
      rw [extent]
      omega

/-- What an account describes has all numbers in range. -/
private theorem Account.Describes.inRange {a : Account} {b : Builder} (h : a.Describes b.draft) :
    b.InRange where
  used_le := by
    rw [← Builder.used_draft]
    exact h.used_le
  vtable_le := by
    rw [← Builder.used_draft]
    exact h.vtablesWritten
  start_le start count hphase := by
    have hused := (h.openObject start count hphase).used_eq
    rw [← Builder.used_draft, hused]
    exact Nat.le_add_right _ _
  field_le start count hphase mark hmem := by
    have hopen := h.openObject start count hphase
    have hfields : b.fields = marks start a.fields := hopen.fields_eq
    rw [hfields] at hmem
    rw [← Builder.used_draft, hopen.used_eq]
    exact bounds_of_mem_marks hmem

namespace Builder

/-- What becomes of a call on a builder that a history describes. -/
private theorem outcome_of_describes {b : Builder} {h : History} (hd : h.Describes b.draft)
    (call : Call) (hroom : b.used + (h.forecast b.used call).written ≤ maxBufferSize) :
    match (h.forecast b.used call).misuse with
    | some cause => call.run b = .error (.misuse cause)
    | none => ∃ reply b', call.run b = .ok (reply, b') ∧
      (call ≠ .reset → b'.used = b.used + (h.forecast b.used call).written) := by
  by_cases hreset : call = .reset
  · subst hreset
    exact ⟨.done, _, rfl, fun hne => absurd rfl hne⟩
  · have hview := perform_draft call hd.account.vtablesWritten
    have hmeets := hd.meets hreset
    rw [← hview, used_draft] at hmeets
    have houtcome := hmeets hroom
    cases hmisuse : (h.forecast b.used call).misuse with
    | some cause =>
      rw [hmisuse] at houtcome
      exact map_eq_error_iff.mp houtcome
    | none =>
      rw [hmisuse] at houtcome
      obtain ⟨p, hp, hsize⟩ := houtcome
      obtain ⟨⟨reply, b'⟩, hrun, rfl⟩ := map_eq_ok_iff.mp hp
      refine ⟨reply, b', hrun, fun _ => ?_⟩
      rw [← used_draft]
      exact hsize

/-- **A call fails exactly for the misuse that the history foretells**, and for nothing else, as
long as what it writes fits under the limit. Where there is none it goes through, writes as many
bytes as foretold, and leaves everything in its range. Whoever makes the calls has no offset that is
zero. -/
theorem fails_iff_misuse {options : BuilderOptions} {calls : List Call} {replies : List Reply}
    {b : Builder} {h : History} (hrun : runCalls calls (withOptions options) = .ok (replies, b))
    (hhistory : History.ofCalls options.forceDefaults calls replies = h) (call : Call)
    (hroom : b.used + (h.forecast b.used call).written ≤ maxBufferSize) :
    (∀ e, call.run b = .error e ↔
        ∃ cause, (h.forecast b.used call).misuse = some cause ∧ e = .misuse cause) ∧
      (∀ reply b', call.run b = .ok (reply, b') → b'.InRange ∧
        (call ≠ .reset → b'.used = b.used + (h.forecast b.used call).written)) ∧
      ∀ offset, .place offset ∈ replies → 0 < offset.value := by
  have hdraft := draft_of_run (by rw [draft_withOptions]; exact Draft.vtablesWritten_empty _) hrun
  rw [draft_withOptions] at hdraft
  have hd : h.Describes b.draft := by
    rw [← hhistory]
    exact History.describes_ofCalls hdraft
  have hinRange {reply : Reply} {b' : Builder} (hcall : call.run b = .ok (reply, b')) :
      b'.InRange :=
    (hd.account.perform (perform_of_run hd.account.vtablesWritten hcall)).inRange
  have houtcome := outcome_of_describes hd call hroom
  cases hmisuse : (h.forecast b.used call).misuse with
  | some cause =>
    rw [hmisuse] at houtcome
    have herror : call.run b = .error (.misuse cause) := houtcome
    refine ⟨fun e => ?_, fun reply b' hcall => ?_, fun _ => Draft.place_pos_of_run hdraft⟩
    · rw [herror]
      simp [eq_comm]
    · rw [herror] at hcall
      cases hcall
  | none =>
    rw [hmisuse] at houtcome
    obtain ⟨reply, b', hok, hused⟩ := houtcome
    refine ⟨fun e => ?_, fun reply' b'' hcall => ?_, fun _ => Draft.place_pos_of_run hdraft⟩
    · rw [hok]
      simp
    · refine ⟨hinRange hcall, ?_⟩
      rw [hok] at hcall
      cases hcall
      exact hused

/-- A string before a reset, and after it an object with a number in slot 1. -/
def staleCalls : List Call :=
  [.createString "abc", .reset, .startObject 2, .pushSlot .u8 1 (5 : UInt8) (0 : UInt8)]

/-- The replies to `staleCalls`. -/
def staleReplies : List Reply := [.place ⟨8⟩, .done, .done, .done]

/-- The offset is from before the reset, and nothing is written there any more. -/
theorem fails_iff_misuse_stale :
    ∃ b, runCalls staleCalls (withOptions ⟨0, false⟩) = .ok (staleReplies, b) ∧
      Call.run (.pushSlotOffset 0 ⟨8⟩) b = .error (.misuse (.danglingOffset 8)) := by
  obtain ⟨⟨replies, b⟩, hrun, hshown⟩ :=
    exists_ok_of_any (p := fun r => r.1 == staleReplies && r.2.used == 1)
      (x := runCalls staleCalls (withOptions ⟨0, false⟩)) (by decide +kernel)
  obtain ⟨hreplies, hsize⟩ := (Bool.and_eq_true _ _).mp hshown
  obtain rfl : replies = staleReplies := eq_of_beq hreplies
  have hused : b.used = 1 := eq_of_beq hsize
  have hcauses := fails_iff_misuse hrun rfl (.pushSlotOffset 0 ⟨8⟩) (by rw [hused]; decide)
  rw [hused] at hcauses
  exact ⟨b, hrun, (hcauses.1 _).mpr ⟨_, by decide, rfl⟩⟩

end Builder

end EnvelopeWire
