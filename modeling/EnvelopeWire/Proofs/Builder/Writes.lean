import EnvelopeWire.Proofs.Builder.Account
import EnvelopeWire.Proofs.Builder.View

/-!
# Constructions that go through

A construction that follows the rules fails only where it needs more than the largest buffer.
`Writes` says so of a step, and says what the step makes of the account: from a builder that an
account describes, the step goes through with a new account, at the cost of so many bytes, or it
fails for want of room, and then the bytes written so far and the cost are more than there is room
for.

* `Writes.bind`: steps in sequence; the costs add up.
* `writes_startObject`, `writes_pushSlot`, `writes_pushSlotOffset`, `writes_endObject`,
  `writes_createString`, `writes_finish`: the steps.
-/

namespace EnvelopeWire

/-- Whether a call fails for want of room. -/
def Failure.isLimit : Failure → Bool
  | bufferLimit | vectorLimit _ => true
  | misuse _ | outOfRange => false

/-- `x` gives a result with `Q`, or fails for want of room for `size` bytes. -/
def Fits {α : Type} (size : Nat) (Q : α → Prop) : Except Failure α → Prop
  | .ok a => Q a
  | .error e => e.isLimit = true ∧ maxBufferSize < size

namespace Fits

variable {α β : Type} {size size' : Nat} {Q : α → Prop} {x : Except Failure α}

/-- More room may be asked for, and less be known of the result. -/
theorem mono {R : α → Prop} (h : Fits size Q x) (hsize : size ≤ size')
    (hQ : ∀ a, x = .ok a → Q a → R a) : Fits size' R x := by
  cases x with
  | error e => exact ⟨h.1, Nat.lt_of_lt_of_le h.2 hsize⟩
  | ok a => exact hQ a rfl h

/-- Steps in sequence, which share the room. -/
theorem bind {R : β → Prop} {f : α → Except Failure β} (h : Fits size Q x)
    (hf : ∀ a, x = .ok a → Q a → Fits size R (f a)) : Fits size R (x >>= f) := by
  cases x with
  | error e => exact h
  | ok a => exact hf a rfl h

/-- A result that is turned into another one needs no room. -/
private theorem map {R : β → Prop} {f : α → β} (h : Fits size Q x)
    (hf : ∀ a, x = .ok a → Q a → R (f a)) : Fits size R (x.map f) := by
  cases x with
  | error e => exact h
  | ok a => exact hf a rfl h

theorem of_map {R : β → Prop} {f : α → β} (h : Fits size R (x.map f)) :
    Fits size (fun a => R (f a)) x := by
  cases x with
  | error e => exact h
  | ok a => exact h

end Fits

/-! ### The steps of a draft -/

namespace Draft

variable {d : Draft} {a : Account} {size : Nat}

/-- Bytes take the room that they need and no more. -/
private theorem fits_put (d : Draft) {bytes : Bytes} (hsize : d.used + bytes.length ≤ size) :
    Fits size (fun d' => d'.used = d.used + bytes.length) (d.put bytes) := by
  by_cases hfits : d.used + bytes.length ≤ maxBufferSize
  · rw [put_eq_ok_iff.mpr ⟨hfits, rfl⟩]
    change (bytes ++ d.written).length = _
    rw [List.length_append, length_written, Nat.add_comm]
  · rw [put_eq_error_iff.mpr ⟨Nat.not_le.mp hfits, rfl⟩]
    exact ⟨rfl, Nat.lt_of_lt_of_le (Nat.not_le.mp hfits) hsize⟩

/-- Padding is never longer than the boundary is wide, not even for a boundary of nothing. -/
theorem padding_le_alignment (n alignment : Nat) : padding n alignment ≤ alignment := by
  rcases Nat.eq_zero_or_pos alignment with rfl | hpos
  · simp [padding]
  · exact Nat.le_of_lt (padding_lt hpos)

/-- Aligned bytes take at most the boundary more than themselves. -/
private theorem fits_putAligned (d : Draft) {bytes : Bytes} {alignment : Nat}
    (hsize : d.used + (bytes.length + alignment) ≤ size) :
    Fits size (fun d' => d'.used ≤ d.used + (bytes.length + alignment))
      (d.putAligned bytes alignment) := by
  have hle := padding_le_alignment (d.used + bytes.length) alignment
  have hlength : (bytes ++
      List.replicate (padding (d.used + bytes.length) alignment) (0 : UInt8)).length
        ≤ bytes.length + alignment := by
    rw [List.length_append, List.length_replicate]
    omega
  refine (fits_put (d.noteAlign alignment) ?_).mono (Nat.le_refl size) fun d' _ hused => ?_
  · rw [used_noteAlign]
    omega
  · rw [hused, used_noteAlign]
    omega

/-- Padding takes at most the boundary that it reaches. -/
theorem fits_pad (d : Draft) {n alignment : Nat} (hsize : d.used + alignment ≤ size) :
    Fits size (fun d' => d.used ≤ d'.used ∧ d'.used ≤ d.used + alignment) (d.pad n alignment) := by
  have hle := padding_le_alignment (d.used + n) alignment
  refine (fits_put (d.noteAlign alignment) ?_).mono (Nat.le_refl size) fun d' _ hused => ?_
  · rw [used_noteAlign, List.length_replicate]
    omega
  · rw [hused, used_noteAlign, List.length_replicate]
    omega

/-- A reference to something written takes its four bytes and at most four of padding. -/
private theorem fits_putReference (d : Draft) {target : Offset} (hpos : 0 < target.value)
    (htarget : target.value ≤ d.used) (hsize : d.used + 8 ≤ size) :
    Fits size (fun d' => d'.used ≤ d.used + 8) (d.putReference target) := by
  refine (fits_pad d (by omega)).bind fun p _ hp => ?_
  rw [(ensure_eq_ok_iff (u := ())).mpr ⟨hpos, by omega⟩]
  refine (fits_put p ?_).mono (Nat.le_refl size) fun d' _ hused => ?_
  · rw [length_littleEndian]
    omega
  · rw [hused, length_littleEndian]
    omega

/-- A vtable is linked at the cost of its bytes and four, or of the four alone when it is shared. -/
private theorem fits_linkVTable (d : Draft) {vtable : Bytes} (object : Nat)
    (hsize : d.used + (vtable.length + 4) ≤ size) :
    Fits size (fun d' => d'.used ≤ d.used + (vtable.length + 4)) (d.linkVTable object vtable) := by
  rw [linkVTable]
  split
  · refine (fits_put _ ?_).mono (Nat.le_refl size) fun d' _ hused => ?_
    · rw [length_vtableReference]
      change d.used + 4 ≤ size
      omega
    · rw [hused, length_vtableReference]
      change d.used + 4 ≤ _
      omega
  · refine (fits_put _ ?_).mono (Nat.le_refl size) fun d' _ hused => ?_
    · rw [List.length_append, length_vtableReference]
      exact hsize
    · rw [hused, List.length_append, length_vtableReference]
      exact Nat.le_refl _

end Draft

/-! ### Stages -/

/-- Where a construction is. -/
inductive Stage
  | idle
  | building (count : UInt16)
  | finished (root : Offset)

/-- The draft is at the stage. A finished one has the reference to its root at the front. -/
def Stage.Matches (d : Draft) : Stage → Prop
  | idle => d.phase = .idle
  | building count => ∃ start, d.phase = .building start count
  | finished root => d.phase = .finished ∧ root.value + 4 ≤ d.used ∧
    d.written.StandsAt d.used (littleEndian 4 (d.used - root.value))

/-- The draft is at the stage, an account describes it, and at most `size` bytes are written. -/
structure Draft.Ready (forceDefaults : Bool) (a : Account) (stage : Stage) (size : Nat)
    (d : Draft) : Prop where
  describes : a.Describes d
  forceDefaults : d.forceDefaults = forceDefaults
  stage : stage.Matches d
  used_le : d.used ≤ size

namespace Draft.Ready

variable {forceDefaults : Bool} {a : Account} {stage : Stage} {size cost : Nat} {d : Draft}

/-- A call that goes through leaves the draft ready with what the call tells. -/
private theorem perform (h : d.Ready forceDefaults a stage size) {call : Call} {stage' : Stage}
    (hcall : Fits (size + cost) (fun p => stage'.Matches p.2 ∧ p.2.used ≤ size + cost)
      (d.perform call)) :
    Fits (size + cost)
      (fun p => p.2.Ready forceDefaults (a.note forceDefaults call p.1) stage' (size + cost))
      (d.perform call) := by
  refine hcall.mono (Nat.le_refl _) fun p hp hmatches => ?_
  have hdescribes := h.describes.perform hp
  rw [h.forceDefaults] at hdescribes
  exact ⟨hdescribes, (Draft.forceDefaults_of_perform hp).trans h.forceDefaults, hmatches.1,
    hmatches.2⟩

variable {slot count : UInt16}

/-- An object is started at the cost of its padding. -/
theorem startObject (h : d.Ready forceDefaults a .idle size) (hcount : count.toNat ≤ maxFields) :
    Fits (size + 8) (fun p => (Stage.building count).Matches p.2 ∧ p.2.used ≤ size + 8)
      (d.perform (.startObject count)) := by
  have hused := h.used_le
  rw [Draft.perform, (Phase.checkStart_eq_ok_iff (u := ())).mpr ⟨h.stage, hcount⟩]
  refine (Draft.fits_pad d (by omega)).bind fun p _ hp => ⟨⟨p.used, rfl⟩, ?_⟩
  change p.used ≤ size + 8
  omega

/-- A fresh slot of the open object passes its checks. -/
private theorem checkSlot (h : d.Ready forceDefaults a (.building count) size)
    (hslot : slot < count) (hfresh : ∀ f ∈ a.fields, f.slot ≠ slot) (op : Operation) :
    d.phase.checkSlot d.fields op slot = .ok () := by
  obtain ⟨start, hphase⟩ := h.stage
  refine Phase.checkSlot_eq_ok_iff.mpr ⟨start, count, hphase, hslot, ?_⟩
  rw [(h.describes.openObject start count hphase).fields_eq]
  exact forall_mem_marks (p := (· ≠ slot)).mpr hfresh

/-- A scalar takes at most eight bytes and eight of padding, and nothing when it is the default. -/
theorem pushSlot (h : d.Ready forceDefaults a (.building count) size) (hslot : slot < count)
    (hfresh : ∀ f ∈ a.fields, f.slot ≠ slot) (type : ScalarType) (value default : type.Value) :
    Fits (size + 16) (fun p => (Stage.building count).Matches p.2 ∧ p.2.used ≤ size + 16)
      (d.perform (.pushSlot type slot value default)) := by
  have hused := h.used_le
  have hwidth := type.width_le
  rw [Draft.perform, h.checkSlot hslot hfresh]
  change Fits _ _ (if _ then _ else _)
  split
  · refine ⟨h.stage, ?_⟩
    change d.used ≤ size + 16
    omega
  · refine (Draft.fits_putAligned d ?_).bind fun p hput hp => ⟨?_, ?_⟩
    · rw [ScalarType.length_encode]
      omega
    · obtain ⟨-, rfl⟩ := Draft.put_eq_ok_iff.mp hput
      exact h.stage
    · rw [ScalarType.length_encode] at hp
      change p.used ≤ size + 16
      omega

/-- A reference to something the account knows takes at most eight bytes. -/
theorem pushSlotOffset (h : d.Ready forceDefaults a (.building count) size) (hslot : slot < count)
    (hfresh : ∀ f ∈ a.fields, f.slot ≠ slot) {target : Offset} (htarget : a.Knows target) :
    Fits (size + 8) (fun p => (Stage.building count).Matches p.2 ∧ p.2.used ≤ size + 8)
      (d.perform (.pushSlotOffset slot target)) := by
  have hused := h.used_le
  obtain ⟨hpos, hle⟩ := h.describes.bounds_of_knows htarget
  rw [Draft.perform, h.checkSlot hslot hfresh]
  refine (Draft.fits_putReference d hpos hle (by omega)).bind fun p href hp => ⟨?_, ?_⟩
  · obtain ⟨-, -, hput⟩ := Draft.putAligned_of_putReference href
    obtain ⟨-, hp⟩ := Draft.put_eq_ok_iff.mp hput
    obtain ⟨start, hphase⟩ := h.stage
    refine ⟨start, ?_⟩
    change p.phase = _
    rw [← hp]
    exact hphase
  · change p.used ≤ size + 8
    omega

/-- The end of an object costs padding, the reference to the vtable, and the vtable unless it is
shared. -/
theorem endObject (h : d.Ready forceDefaults a (.building count) size)
    (hlength : objectLength a.fields ≤ 65535) :
    Fits (size + (12 + 2 * count.toNat))
      (fun p => Stage.idle.Matches p.2 ∧ p.2.used ≤ size + (12 + 2 * count.toNat))
      (d.perform .endObject) := by
  have hused := h.used_le
  obtain ⟨start, hphase⟩ := h.stage
  have hopen := h.describes.openObject start count hphase
  have hcovered : covered a.fields ≤ count.toNat :=
    covered_le fun f hf => UInt16.lt_iff_toNat_lt.mp (hopen.slot_lt f hf)
  have hclose : Fits (size + (12 + 2 * count.toNat))
      (fun p => p.2.phase = .idle ∧ p.2.used ≤ size + (12 + 2 * count.toNat))
      (d.closeObject start) := by
    have hpadded : Fits (size + (12 + 2 * count.toNat))
        (fun p => d.used ≤ p.used ∧ p.used ≤ d.used + 4) (d.pad 4 4) := d.fits_pad (by omega)
    cases hpad : d.pad 4 4 with
    | error e =>
      rw [hpad] at hpadded
      rw [Draft.closeObject, hpad]
      exact hpadded
    | ok p =>
      rw [hpad] at hpadded
      obtain ⟨hle, hle'⟩ := hpadded
      -- Without room for the reference the limit is met before the vtable is computed.
      by_cases hfits : p.used + 4 ≤ maxBufferSize
      · rw [hopen.closeObject_eq hpad hfits hlength]
        have hlink := p.fits_linkVTable (p.used + 4)
          (show p.used + ((vtableOf a.fields).length + 4) ≤ size + (12 + 2 * count.toNat) by
            rw [length_vtableOf]; omega)
        rw [length_vtableOf] at hlink
        exact hlink.map fun closed _ hclosed => ⟨rfl, Nat.le_trans hclosed (by omega)⟩
      · rw [Draft.closeObject, hpad]
        change Fits _ _ (ensure _ _ >>= _)
        rw [ensure_eq_error_iff.mpr ⟨hfits, rfl⟩]
        exact ⟨rfl, by omega⟩
  rw [Draft.perform, Phase.openStart_eq_ok_iff.mpr ⟨count, hphase⟩]
  exact hclose.bind fun p _ hp => hp

/-- A vector is put with its count, its terminator and the padding. -/
private theorem putVector (h : d.Ready forceDefaults a .idle size) (bytes : Bytes)
    (terminated : Bool) :
    Fits (size + (bytes.length + (terminated.toNat + 8)))
      (fun d' => Stage.idle.Matches d' ∧ d'.used ≤ size + (bytes.length + (terminated.toNat + 8)))
      (d.putVector bytes terminated) := by
  have hused := h.used_le
  have hlength : (vectorBytes bytes terminated).length
      = bytes.length + (terminated.toNat + 4) := by
    simp only [vectorBytes, List.length_append, ScalarType.length_encode, ScalarType.width,
      List.length_replicate]
    omega
  by_cases hfits : bytes.length < maxBufferSize
  · rw [Draft.putVector, (ensure_eq_ok_iff (u := ())).mpr hfits]
    change Fits _ _ (d.putAligned _ 4)
    refine (Draft.fits_putAligned d (by omega)).mono (Nat.le_refl _) fun p hput hp => ⟨?_, ?_⟩
    · obtain ⟨-, rfl⟩ := Draft.put_eq_ok_iff.mp hput
      exact h.stage
    · omega
  · rw [Draft.putVector, ensure_eq_error_iff.mpr ⟨hfits, rfl⟩]
    exact ⟨rfl, by omega⟩

/-- A string costs its bytes, the zero byte behind them, its length and at most four of padding. -/
theorem createString (h : d.Ready forceDefaults a .idle size) (text : String) :
    Fits (size + ((utf8 text).length + 9))
      (fun p => Stage.idle.Matches p.2 ∧ p.2.used ≤ size + ((utf8 text).length + 9))
      (d.perform (.createString text)) := by
  rw [Draft.perform, (Phase.checkIdle_eq_ok_iff (u := ())).mpr h.stage]
  exact (h.putVector (utf8 text) true).bind fun _ _ hp => hp

/-- A vector of bytes costs its bytes, their count and at most four of padding. -/
theorem createByteVector (h : d.Ready forceDefaults a .idle size) (bytes : Bytes) :
    Fits (size + (bytes.length + 8))
      (fun p => Stage.idle.Matches p.2 ∧ p.2.used ≤ size + (bytes.length + 8))
      (d.perform (.createByteVector bytes)) := by
  have hput := h.putVector bytes false
  rw [Bool.toNat_false, Nat.zero_add] at hput
  rw [Draft.perform, (Phase.checkIdle_eq_ok_iff (u := ())).mpr h.stage]
  exact hput.bind fun _ _ hp => hp

/-- The root costs its reference and padding up to the widest boundary. -/
theorem finish (h : d.Ready forceDefaults a .idle size) {root : Offset} (hroot : a.Knows root) :
    Fits (size + 16) (fun p => (Stage.finished root).Matches p.2 ∧ p.2.used ≤ size + 16)
      (d.perform (.finish root)) := by
  have hused := h.used_le
  have halign := h.describes.minAlign_le
  obtain ⟨hpos, hle⟩ := h.describes.bounds_of_knows hroot
  have hperform : Fits (size + 16) (fun p => p.2.used ≤ size + 16) (d.perform (.finish root)) := by
    rw [Draft.perform, (Phase.checkIdle_eq_ok_iff (u := ())).mpr h.stage]
    refine (Draft.fits_pad d (by omega)).bind fun p _ hp => ?_
    refine (Draft.fits_putReference p hpos (by omega) (by omega)).bind fun q _ hq => ?_
    change q.used ≤ size + 16
    omega
  refine hperform.mono (Nat.le_refl _) fun p hp hsize => ⟨?_, hsize⟩
  obtain ⟨-, hle, hphase, hstands⟩ := Draft.stands_of_finish hp
  exact ⟨hphase, hle, hstands⟩

end Draft.Ready

/-! ### The steps of a builder -/

/-- From an account and a stage the step goes through, giving a result, an account and a stage
with `Q`, or fails for want of room; it writes at most `cost` bytes. -/
def Writes {α : Type} (forceDefaults : Bool) (a : Account) (stage : Stage) (step : Build α)
    (cost : Nat) (Q : α → Account → Stage → Prop) : Prop :=
  ∀ size (b : Builder), b.draft.Ready forceDefaults a stage size →
    Fits (size + cost)
      (fun p => ∃ a' stage', Q p.1 a' stage' ∧
        p.2.draft.Ready forceDefaults a' stage' (size + cost)) (step b)

namespace Writes

variable {α β : Type} {forceDefaults : Bool} {a : Account} {stage : Stage} {step : Build α}
  {cost : Nat} {Q : α → Account → Stage → Prop}

/-- A result that is there already writes nothing. -/
theorem of_pure (x : α) (h : Q x a stage) : Writes forceDefaults a stage (pure x) 0 Q :=
  fun _ _ hready => ⟨a, stage, h, hready⟩

/-- A cost may be overstated, and less be said of the result. -/
theorem mono {cost' : Nat} {R : α → Account → Stage → Prop}
    (h : Writes forceDefaults a stage step cost Q) (hcost : cost ≤ cost')
    (hQ : ∀ x a' stage', Q x a' stage' → R x a' stage') :
    Writes forceDefaults a stage step cost' R := by
  intro size b hready
  have hle : size + cost ≤ size + cost' := Nat.add_le_add_left hcost size
  refine (h size b hready).mono hle fun p _ hp => ?_
  obtain ⟨a', stage', hq, hready'⟩ := hp
  exact ⟨a', stage', hQ _ _ _ hq, hready'.describes, hready'.forceDefaults, hready'.stage,
    Nat.le_trans hready'.used_le hle⟩

/-- A step that writes nothing goes through at any cost. -/
theorem of_pure_cost (x : α) (h : Q x a stage) : Writes forceDefaults a stage (pure x) cost Q :=
  (of_pure x h).mono (Nat.zero_le cost) fun _ _ _ h => h

/-- Steps in sequence; the costs add up. -/
theorem bind {next : α → Build β} {cost' : Nat} {R : β → Account → Stage → Prop}
    (h : Writes forceDefaults a stage step cost Q)
    (hnext : ∀ x a' stage', Q x a' stage' → Writes forceDefaults a' stage' (next x) cost' R) :
    Writes forceDefaults a stage (step >>= next) (cost + cost') R := by
  intro size b hready
  have hle : size + cost ≤ size + (cost + cost') := Nat.add_le_add_left (Nat.le_add_right _ _) size
  have hstep := (h size b hready).mono hle fun p _ hp => hp
  refine hstep.bind fun p _ hp => ?_
  obtain ⟨a', stage', hq, hready'⟩ := hp
  rw [← Nat.add_assoc]
  exact hnext p.1 a' stage' hq (size + cost) p.2 hready'

/-- What is made of a result writes nothing more. -/
theorem map {f : α → β} {R : β → Account → Stage → Prop}
    (h : Writes forceDefaults a stage step cost Q)
    (hf : ∀ x a' stage', Q x a' stage' → R (f x) a' stage') :
    Writes forceDefaults a stage (f <$> step) cost R := by
  rw [map_eq_pure_bind]
  exact h.bind fun x a' stage' hq => .of_pure _ (hf x a' stage' hq)

/-- A step is what a call does, where the call goes through on a draft. -/
private theorem of_call {stage' : Stage} (call : Call) (reply : α → Reply)
    (hcall : call.run = step >>= fun x => pure (reply x))
    (hperform : ∀ size d, Draft.Ready forceDefaults a stage size d →
      Fits (size + cost) (fun p => stage'.Matches p.2 ∧ p.2.used ≤ size + cost) (d.perform call)) :
    Writes forceDefaults a stage step cost
      (fun x a' stage'' => a' = a.note forceDefaults call (reply x) ∧ stage'' = stage') := by
  intro size b hready
  -- What is known of drafts is carried over to the builder that shows them.
  have hfits := hready.perform (hperform size b.draft hready)
  rw [← Builder.perform_draft call hready.describes.vtablesWritten, hcall] at hfits
  change Fits _ _ (Builder.viewed (step b >>= fun p => .ok (reply p.1, p.2))) at hfits
  cases hstep : step b with
  | error e =>
    rw [hstep] at hfits
    exact hfits
  | ok p =>
    rw [hstep] at hfits
    exact ⟨_, _, ⟨rfl, rfl⟩, hfits⟩

end Writes

section Steps

variable {forceDefaults : Bool} {a : Account} {slot count : UInt16}

/-- An object is started with no fields. -/
theorem writes_startObject (hcount : count.toNat ≤ maxFields) :
    Writes forceDefaults a .idle (Build.startObject count) 8
      (fun _ a' stage => a' = { a with fields := [] } ∧ stage = .building count) :=
  .of_call (.startObject count) (fun _ => .done) rfl fun _ _ h => h.startObject hcount

/-- A scalar becomes a field, or is left out when it is the default. -/
theorem writes_pushSlot (hslot : slot < count) (hfresh : ∀ f ∈ a.fields, f.slot ≠ slot)
    (type : ScalarType) (value default : type.Value) :
    Writes forceDefaults a (.building count) (Build.pushSlot type slot value default) 16
      (fun _ a' stage =>
        a' = a.note forceDefaults (.pushSlot type slot value default) .done ∧
          stage = .building count) :=
  .of_call (.pushSlot type slot value default) (fun _ => .done) rfl fun _ _ h =>
    h.pushSlot hslot hfresh type value default

/-- A reference becomes a field. -/
theorem writes_pushSlotOffset (hslot : slot < count) (hfresh : ∀ f ∈ a.fields, f.slot ≠ slot)
    {target : Offset} (htarget : a.Knows target) :
    Writes forceDefaults a (.building count) (Build.pushSlotOffset slot target) 8
      (fun _ a' stage => a' = a.push slot (.reference target) ∧ stage = .building count) :=
  .of_call (.pushSlotOffset slot target) (fun _ => .done) rfl fun _ _ h =>
    h.pushSlotOffset hslot hfresh htarget

/-- An object that is ended is a new item, with the fields that were open. -/
theorem writes_endObject (hlength : objectLength a.fields ≤ 65535) :
    Writes forceDefaults a (.building count) Build.endObject (12 + 2 * count.toNat)
      (fun offset a' stage => a' = a.add (.object a.fields) (.place offset) ∧ stage = .idle) :=
  .of_call .endObject .place rfl fun _ _ h => h.endObject hlength

/-- A string is a new item. -/
theorem writes_createString (text : String) :
    Writes forceDefaults a .idle (Build.createString text) ((utf8 text).length + 9)
      (fun offset a' stage => a' = a.add (.string text) (.place offset) ∧ stage = .idle) :=
  .of_call (.createString text) .place rfl fun _ _ h => h.createString text

/-- Finishing adds no item. -/
theorem writes_finish {root : Offset} (hroot : a.Knows root) :
    Writes forceDefaults a .idle (Build.finish root) 16
      (fun _ a' stage => a' = a ∧ stage = .finished root) :=
  .of_call (.finish root) (fun _ => .done) rfl fun _ _ h => h.finish hroot

/-- The data of a finished construction is described by its account. -/
theorem writes_finishedData {root : Offset} (op : Operation) :
    Writes forceDefaults a (.finished root) (Build.finishedData op) 0
      (fun data a' stage => stage = .finished root ∧ a' = a ∧
        ∃ d : Draft, d.written = data ∧ a.Describes d ∧ stage.Matches d) := by
  intro size b h
  have hchecked : b.phase.checkFinished op = .ok () :=
    Phase.checkFinished_eq_ok_iff.mpr h.stage.1
  rw [Build.finishedData, hchecked]
  exact ⟨a, .finished root, ⟨rfl, rfl, b.draft, rfl, h.describes, h.stage⟩, h⟩

end Steps

end EnvelopeWire
