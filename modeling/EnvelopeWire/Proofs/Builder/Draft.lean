import EnvelopeWire.Builder.Call
import EnvelopeWire.Builder.Lemmas

/-!
# What shows of a builder

A `Draft` is all of a builder that a caller can ever see the effect of: the bytes written, the
alignment, the phase, the fields of the open object and the vtables. It has no cells.
`Draft.perform` says what each call does to a draft, by putting bytes in front of a list only: the
vtable of an object is found or placed before the reference to it is written, so nothing is written
twice.

* `Draft.step_of_perform`: all that a call that goes through checks, replies and changes.
* `Draft.grows_of_perform`, `Draft.grows_of_run`: without a reset, what is written stays.
* `Draft.VTablesWritten.perform`: the vtables lie in what is written.
-/

namespace EnvelopeWire

/-- What shows of a builder. -/
structure Draft where
  written : Bytes
  minAlign : Nat
  forceDefaults : Bool
  phase : Phase
  fields : List FieldMark
  vtables : List Nat
  vtablesReused : Nat
deriving DecidableEq

namespace Draft

/-- The draft of a builder that has written nothing. -/
def empty (forceDefaults : Bool) : Draft where
  written := []
  minAlign := 1
  forceDefaults := forceDefaults
  phase := .idle
  fields := []
  vtables := []
  vtablesReused := 0

/-- The number of bytes written. -/
def used (d : Draft) : Nat := d.written.length

/-- Notes that the field in `slot` is what was written last. -/
def mark (d : Draft) (slot : UInt16) : Draft :=
  { d with fields := { slot := slot, offset := d.used } :: d.fields }

/-- Notes that something asks for `alignment`. -/
def noteAlign (d : Draft) (alignment : Nat) : Draft :=
  { d with minAlign := max d.minAlign alignment }

/-! ### Writing -/

/-- Puts `bytes` in front, if they fit under the limit. -/
def put (d : Draft) (bytes : Bytes) : Except Failure Draft :=
  if d.used + bytes.length ≤ maxBufferSize then .ok { d with written := bytes ++ d.written }
  else .error .bufferLimit

/-- Puts zeros in front, so that `size` more bytes end on a multiple of `alignment`. -/
def pad (d : Draft) (size alignment : Nat) : Except Failure Draft :=
  (d.noteAlign alignment).put (List.replicate (padding (d.used + size) alignment) 0)

/-- Puts `bytes` in front, with the zeros behind them that make them end on a multiple of
`alignment`. -/
def putAligned (d : Draft) (bytes : Bytes) (alignment : Nat) : Except Failure Draft :=
  (d.noteAlign alignment).put
    (bytes ++ List.replicate (padding (d.used + bytes.length) alignment) 0)

/-- Puts a reference to `target` in front. -/
def putReference (d : Draft) (target : Offset) : Except Failure Draft := do
  let d ← d.pad 4 4
  ensure (0 < target.value ∧ target.value ≤ d.used) (Failure.misuse (.danglingOffset target.value))
  d.put (littleEndian 4 (d.used + 4 - target.value))

end Draft

/-- The bytes of a vector: the count, the bytes, and a zero byte if it is `terminated`. -/
def vectorBytes (bytes : Bytes) (terminated : Bool) : Bytes :=
  ScalarType.u32.encode (UInt32.ofNat bytes.length)
    ++ (bytes ++ List.replicate terminated.toNat 0)

/-- The bytes of the reference of an object that ends at `object` to a vtable at `place`. -/
def vtableReference (place object : Nat) : Bytes :=
  ScalarType.i32.encode (Int32.ofInt ((place : Int) - object))

/-- The reference to a vtable takes four bytes. -/
@[simp]
theorem length_vtableReference (place object : Nat) : (vtableReference place object).length = 4 :=
  ScalarType.length_encode _ _

namespace Draft

/-- Puts a vector in front. -/
def putVector (d : Draft) (bytes : Bytes) (terminated : Bool) : Except Failure Draft := do
  ensure (bytes.length < maxBufferSize) (Failure.vectorLimit bytes.length)
  d.putAligned (vectorBytes bytes terminated) 4

/-- The first of the vtables written that reads `vtable`. -/
def findVTable (d : Draft) (vtable : Bytes) : Option Nat :=
  d.vtables.find? fun place => vtable.isPrefixOf (d.written.drop (d.used - place))

/-- Puts the reference of the object that ends at `object` in front, and in front of that its
vtable, unless that one is written already. -/
def linkVTable (d : Draft) (object : Nat) (vtable : Bytes) : Except Failure Draft :=
  match d.findVTable vtable with
  | some place =>
    put { d with vtablesReused := d.vtablesReused + 1 } (vtableReference place object)
  | none =>
    let place := vtable.length + object
    put { d with vtables := d.vtables ++ [place] } (vtable ++ vtableReference place object)

/-- Closes the object that was opened after `start` bytes. -/
def closeObject (d : Draft) (start : Nat) : Except Failure (Offset × Draft) := do
  let d ← d.pad 4 4
  ensure (d.used + 4 ≤ maxBufferSize) Failure.bufferLimit
  let length ← difference (d.used + 4) start
  ensure (length ≤ 65535) (Failure.misuse (.objectTooLarge length))
  let vtable ← Builder.vtableBytes (d.used + 4) length d.fields
  let closed ← d.linkVTable (d.used + 4) vtable
  return (⟨d.used + 4⟩, { closed with fields := [], phase := .idle })

/-! ### The calls -/

/-- What a call does to a draft. -/
def perform (call : Call) (d : Draft) : Except Failure (Reply × Draft) :=
  match call with
  | .startObject fields => do
    d.phase.checkStart fields
    let d ← d.pad 0 8
    return (.done, { d with fields := [], phase := .building d.used fields })
  | .pushSlot type slot value default => do
    d.phase.checkSlot d.fields .pushSlot slot
    if type.agrees value default && !d.forceDefaults then
      return (.done, d)
    else
      let d ← d.putAligned (type.encode value) type.width
      return (.done, d.mark slot)
  | .pushSlotOffset slot target => do
    d.phase.checkSlot d.fields .pushSlotOffset slot
    let d ← d.putReference target
    return (.done, d.mark slot)
  | .endObject => do
    let start ← d.phase.openStart
    let (offset, d) ← d.closeObject start
    return (.place offset, d)
  | .createString text => do
    d.phase.checkIdle .createString
    let d ← d.putVector (utf8 text) true
    return (.place ⟨d.used⟩, d)
  | .createByteVector bytes => do
    d.phase.checkIdle .createByteVector
    let d ← d.putVector bytes false
    return (.place ⟨d.used⟩, d)
  | .finish root => do
    d.phase.checkIdle .finish
    let d ← d.pad 4 d.minAlign
    let d ← d.putReference root
    return (.done, { d with phase := .finished })
  | .reset => return (.done, empty d.forceDefaults)
  | .finishedData => do
    d.phase.checkFinished .finishedData
    return (.data d.written, d)
  | .takeFinishedData => do
    d.phase.checkFinished .takeFinishedData
    return (.data d.written, d)

/-! ### What the steps give -/

@[simp]
theorem length_written (d : Draft) : d.written.length = d.used := rfl

@[simp]
theorem used_noteAlign (d : Draft) (alignment : Nat) : (d.noteAlign alignment).used = d.used := rfl

/-- Bytes are put in front exactly when they fit. -/
theorem put_eq_ok_iff {d d' : Draft} {bytes : Bytes} :
    d.put bytes = .ok d' ↔
      d.used + bytes.length ≤ maxBufferSize ∧ { d with written := bytes ++ d.written } = d' := by
  by_cases h : d.used + bytes.length ≤ maxBufferSize <;> simp [put, h]

/-- Bytes that do not fit are refused for the limit. -/
theorem put_eq_error_iff {d : Draft} {bytes : Bytes} {e : Failure} :
    d.put bytes = .error e ↔ maxBufferSize < d.used + bytes.length ∧ e = .bufferLimit := by
  by_cases h : d.used + bytes.length ≤ maxBufferSize
  · simp [put, h, Nat.not_lt.mpr h]
  · simp [put, h, Nat.not_le.mp h, eq_comm]

/-- Two pieces put one after the other are one piece. -/
private theorem put_bind_put (d : Draft) (back front : Bytes) :
    (d.put back >>= fun d => d.put front) = d.put (front ++ back) := by
  by_cases hback : d.used + back.length ≤ maxBufferSize
  · rw [put_eq_ok_iff.mpr ⟨hback, rfl⟩]
    change put _ front = _
    simp only [put, used, List.length_append, List.append_assoc]
    have hsum : back.length + d.written.length + front.length
        = d.written.length + (front.length + back.length) := by omega
    rw [hsum]
  · rw [put_eq_error_iff.mpr ⟨Nat.not_le.mp hback, rfl⟩]
    refine (put_eq_error_iff.mpr ⟨?_, rfl⟩).symm
    rw [List.length_append]
    omega

/-- Padding for the bytes to come and putting them is putting them with their padding. -/
theorem pad_bind_put (d : Draft) (bytes : Bytes) (alignment : Nat) :
    (d.pad bytes.length alignment >>= fun d => d.put bytes) = d.putAligned bytes alignment :=
  put_bind_put _ _ _

/-- Where everything ends on a boundary already, there is nothing to align. -/
private theorem putAligned_eq_put {d : Draft} {bytes : Bytes} {alignment : Nat}
    (hpos : 0 < alignment) (hused : d.used % alignment = 0)
    (hbytes : bytes.length % alignment = 0) (halign : alignment ≤ d.minAlign) :
    d.putAligned bytes alignment = d.put bytes := by
  have hnone : padding (d.used + bytes.length) alignment = 0 := by
    rw [padding_add_left hbytes, padding_eq_zero_iff hpos, hused]
  have hnote : d.noteAlign alignment = d := by
    rw [noteAlign, Nat.max_eq_left halign]
  rw [putAligned, hnone, hnote, List.replicate_zero, List.append_nil]

/-- What was put with its padding ends on the boundary. -/
theorem used_mod_of_putAligned {d d' : Draft} {bytes : Bytes} {alignment : Nat}
    (hpos : 0 < alignment) (h : d.putAligned bytes alignment = .ok d') :
    d'.used % alignment = 0 := by
  obtain ⟨-, rfl⟩ := put_eq_ok_iff.mp h
  have hspec := padding_spec (d.used + bytes.length) hpos
  rw [← hspec]
  simp only [used, noteAlign, List.length_append, List.length_replicate]
  congr 1
  omega

/-- Two aligned pieces are one, when the front one is a multiple of the alignment long. -/
theorem putAligned_bind_putAligned (d : Draft) {back front : Bytes} {alignment : Nat}
    (hpos : 0 < alignment) (hfront : front.length % alignment = 0) :
    (d.putAligned back alignment >>= fun d => d.putAligned front alignment)
      = d.putAligned (front ++ back) alignment := by
  have hpadding : padding (d.used + (front ++ back).length) alignment
      = padding (d.used + back.length) alignment := by
    rw [List.length_append, Nat.add_comm front.length, ← Nat.add_assoc, padding_add_left hfront]
  have hwhole : d.putAligned (front ++ back) alignment
      = (d.putAligned back alignment >>= fun d => d.put front) := by
    rw [putAligned, hpadding, List.append_assoc]
    exact (put_bind_put _ _ _).symm
  rw [hwhole]
  -- The padding goes behind the piece at the back; the one in front needs none of its own.
  refine bind_congr_ok fun d' hd' => ?_
  refine putAligned_eq_put hpos (used_mod_of_putAligned hpos hd') hfront ?_
  obtain ⟨-, rfl⟩ := put_eq_ok_iff.mp hd'
  exact Nat.le_max_right _ _

/-- A reference is put on a boundary of four bytes, once its target is known to lie in what is
written by then. -/
theorem putReference_eq_ok_iff {d d' : Draft} {target : Offset} :
    d.putReference target = .ok d' ↔ ∃ p, d.pad 4 4 = .ok p ∧
      0 < target.value ∧ target.value ≤ p.used ∧
      p.put (littleEndian 4 (p.used + 4 - target.value)) = .ok d' := by
  simp only [putReference, bind_eq_ok_iff, ensure_eq_ok_iff, exists_const, and_assoc]

theorem used_of_put {d d' : Draft} {bytes : Bytes} (h : d.put bytes = .ok d') :
    d'.used = d.used + bytes.length := by
  obtain ⟨-, rfl⟩ := put_eq_ok_iff.mp h
  rw [used, List.length_append, length_written, Nat.add_comm]

theorem used_of_pad {d d' : Draft} {size alignment : Nat} (h : d.pad size alignment = .ok d') :
    d'.used = d.used + padding (d.used + size) alignment := by
  have hused := used_of_put (d := d.noteAlign alignment) h
  rwa [List.length_replicate] at hused

theorem used_of_putAligned {d d' : Draft} {bytes : Bytes} {alignment : Nat}
    (h : d.putAligned bytes alignment = .ok d') :
    d'.used = d.used + padding (d.used + bytes.length) alignment + bytes.length := by
  obtain ⟨-, rfl⟩ := put_eq_ok_iff.mp h
  simp only [used, noteAlign, List.length_append, List.length_replicate]
  omega

theorem phase_of_putAligned {d d' : Draft} {bytes : Bytes} {alignment : Nat}
    (h : d.putAligned bytes alignment = .ok d') : d'.phase = d.phase := by
  obtain ⟨-, rfl⟩ := put_eq_ok_iff.mp h
  rfl

/-- A reference is an aligned piece of four bytes that leads to something written before it. -/
theorem putAligned_of_putReference {d d' : Draft} {target : Offset}
    (h : d.putReference target = .ok d') :
    0 < target.value ∧ target.value + 4 ≤ d'.used ∧
      d.putAligned (littleEndian 4 (d'.used - target.value)) 4 = .ok d' := by
  obtain ⟨p, hpad, hpos, hle, hput⟩ := putReference_eq_ok_iff.mp h
  have hused : d'.used = p.used + 4 := by
    obtain ⟨-, rfl⟩ := put_eq_ok_iff.mp hput
    simp only [used, List.length_append, length_littleEndian]
    exact Nat.add_comm _ _
  refine ⟨hpos, by omega, ?_⟩
  have hwhole := d.pad_bind_put (littleEndian 4 (d'.used - target.value)) 4
  rw [length_littleEndian, hpad] at hwhole
  rw [← hwhole, hused]
  exact hput

/-- All that closing an object does and asks for. -/
theorem closeObject_eq_ok_iff {d d' : Draft} {start : Nat} {offset : Offset} :
    d.closeObject start = .ok (offset, d') ↔ ∃ p, d.pad 4 4 = .ok p ∧
      p.used + 4 ≤ maxBufferSize ∧ start ≤ p.used + 4 ∧ p.used + 4 - start ≤ 65535 ∧
      ∃ vtable, Builder.vtableBytes (p.used + 4) (p.used + 4 - start) p.fields = .ok vtable ∧
      ∃ closed, p.linkVTable (p.used + 4) vtable = .ok closed ∧
        offset = ⟨p.used + 4⟩ ∧ d' = { closed with fields := [], phase := .idle } := by
  simp only [closeObject, bind_eq_ok_iff, ensure_eq_ok_iff, difference_eq_ok_iff, exists_const]
  constructor
  · rintro ⟨p, hpad, hfits, length, ⟨hstart, rfl⟩, hlength, vtable, hvtable, closed, hlink, heq⟩
    cases heq
    exact ⟨p, hpad, hfits, hstart, hlength, vtable, hvtable, closed, hlink, rfl, rfl⟩
  · rintro ⟨p, hpad, hfits, hstart, hlength, vtable, hvtable, closed, hlink, rfl, rfl⟩
    exact ⟨p, hpad, hfits, _, ⟨hstart, rfl⟩, hlength, vtable, hvtable, closed, hlink, rfl⟩

/-! ### What a call does -/

/-- What a call that goes through checks, replies and makes of a draft. -/
inductive Step (d : Draft) : Call → Reply → Draft → Prop
  | startObject {fields : UInt16} {p : Draft} (hidle : d.phase = .idle)
    (hfields : fields.toNat ≤ maxFields) (hpad : d.pad 0 8 = .ok p) :
    Step d (.startObject fields) .done { p with fields := [], phase := .building p.used fields }
  /-- The default is left out. -/
  | elided {type : ScalarType} {slot : UInt16} {value default : type.Value}
    (hcheck : d.phase.checkSlot d.fields .pushSlot slot = .ok ())
    (helided : (type.agrees value default && !d.forceDefaults) = true) :
    Step d (.pushSlot type slot value default) .done d
  | pushSlot {type : ScalarType} {slot : UInt16} {value default : type.Value} {p : Draft}
    (hcheck : d.phase.checkSlot d.fields .pushSlot slot = .ok ())
    (hwritten : ¬(type.agrees value default && !d.forceDefaults) = true)
    (hput : d.putAligned (type.encode value) type.width = .ok p) :
    Step d (.pushSlot type slot value default) .done (p.mark slot)
  | pushSlotOffset {slot : UInt16} {target : Offset} {p : Draft}
    (hcheck : d.phase.checkSlot d.fields .pushSlotOffset slot = .ok ())
    (href : d.putReference target = .ok p) :
    Step d (.pushSlotOffset slot target) .done (p.mark slot)
  | endObject {start : Nat} {count : UInt16} {offset : Offset} {c : Draft}
    (hphase : d.phase = .building start count) (hclose : d.closeObject start = .ok (offset, c)) :
    Step d .endObject (.place offset) c
  | createString {text : String} {p : Draft} (hidle : d.phase = .idle)
    (hput : d.putVector (utf8 text) true = .ok p) :
    Step d (.createString text) (.place ⟨p.used⟩) p
  | createByteVector {bytes : Bytes} {p : Draft} (hidle : d.phase = .idle)
    (hput : d.putVector bytes false = .ok p) :
    Step d (.createByteVector bytes) (.place ⟨p.used⟩) p
  | finish {root : Offset} {p q : Draft} (hidle : d.phase = .idle)
    (hpad : d.pad 4 d.minAlign = .ok p) (href : p.putReference root = .ok q) :
    Step d (.finish root) .done { q with phase := .finished }
  | reset : Step d .reset .done (empty d.forceDefaults)
  | finishedData (hfinished : d.phase = .finished) : Step d .finishedData (.data d.written) d
  | takeFinishedData (hfinished : d.phase = .finished) :
    Step d .takeFinishedData (.data d.written) d

/-- **A call that goes through is such a step.** -/
theorem step_of_perform {d d' : Draft} {call : Call} {reply : Reply}
    (h : d.perform call = .ok (reply, d')) : d.Step call reply d' := by
  cases call with
  | startObject fields =>
    simp only [perform, bind_eq_ok_iff, Phase.checkStart_eq_ok_iff] at h
    obtain ⟨-, ⟨hidle, hfields⟩, p, hpad, heq⟩ := h
    cases heq
    exact .startObject hidle hfields hpad
  | pushSlot type slot value default =>
    simp only [perform, bind_eq_ok_iff] at h
    obtain ⟨⟨⟩, hcheck, h⟩ := h
    split at h
    case isTrue helided =>
      cases h
      exact .elided hcheck helided
    case isFalse hwritten =>
      obtain ⟨p, hput, heq⟩ := bind_eq_ok_iff.mp h
      cases heq
      exact .pushSlot hcheck hwritten hput
  | pushSlotOffset slot target =>
    simp only [perform, bind_eq_ok_iff] at h
    obtain ⟨⟨⟩, hcheck, p, href, heq⟩ := h
    cases heq
    exact .pushSlotOffset hcheck href
  | endObject =>
    simp only [perform, bind_eq_ok_iff, Phase.openStart_eq_ok_iff] at h
    obtain ⟨start, ⟨count, hphase⟩, ⟨offset, c⟩, hclose, heq⟩ := h
    cases heq
    exact .endObject hphase hclose
  | createString text =>
    simp only [perform, bind_eq_ok_iff, Phase.checkIdle_eq_ok_iff] at h
    obtain ⟨-, hidle, p, hput, heq⟩ := h
    cases heq
    exact .createString hidle hput
  | createByteVector bytes =>
    simp only [perform, bind_eq_ok_iff, Phase.checkIdle_eq_ok_iff] at h
    obtain ⟨-, hidle, p, hput, heq⟩ := h
    cases heq
    exact .createByteVector hidle hput
  | finish root =>
    simp only [perform, bind_eq_ok_iff, Phase.checkIdle_eq_ok_iff] at h
    obtain ⟨-, hidle, p, hpad, q, href, heq⟩ := h
    cases heq
    exact .finish hidle hpad href
  | reset =>
    cases h
    exact .reset
  | finishedData =>
    simp only [perform, bind_eq_ok_iff, Phase.checkFinished_eq_ok_iff] at h
    obtain ⟨-, hfinished, heq⟩ := h
    cases heq
    exact .finishedData hfinished
  | takeFinishedData =>
    simp only [perform, bind_eq_ok_iff, Phase.checkFinished_eq_ok_iff] at h
    obtain ⟨-, hfinished, heq⟩ := h
    cases heq
    exact .takeFinishedData hfinished

/-- A vector is an aligned piece. -/
theorem putVector_eq_ok_iff {d d' : Draft} {bytes : Bytes} {terminated : Bool} :
    d.putVector bytes terminated = .ok d' ↔ bytes.length < maxBufferSize ∧
      d.putAligned (vectorBytes bytes terminated) 4 = .ok d' := by
  simp only [putVector, bind_eq_ok_iff, ensure_eq_ok_iff, exists_const]

/-! ### What every call keeps -/

/-- `d'` comes from `d` by putting bytes in front: what was written stands behind them, and the
vtables are kept, with new ones that lie in what is written then. The limits are kept too. -/
structure Grows (d d' : Draft) : Prop where
  forceDefaults : d'.forceDefaults = d.forceDefaults
  written : d.written <:+ d'.written
  used_le : d.used ≤ maxBufferSize → d'.used ≤ maxBufferSize
  minAlign_le : d.minAlign ≤ 8 → d'.minAlign ≤ 8
  vtables : d.vtables <+: d'.vtables
  new_vtables : ∀ place ∈ d'.vtables, place ∈ d.vtables ∨ place ≤ d'.used

private theorem Grows.refl (d : Draft) : d.Grows d where
  forceDefaults := rfl
  written := List.suffix_rfl
  used_le := id
  minAlign_le := id
  vtables := List.prefix_rfl
  new_vtables _ hplace := .inl hplace

private theorem Grows.used_mono {d d' : Draft} (h : d.Grows d') : d.used ≤ d'.used :=
  h.written.length_le

/-- What grew and grew again has grown. -/
private theorem Grows.trans {a b c : Draft} (hab : a.Grows b) (hbc : b.Grows c) : a.Grows c where
  forceDefaults := hbc.forceDefaults.trans hab.forceDefaults
  written := hab.written.trans hbc.written
  used_le := hbc.used_le ∘ hab.used_le
  minAlign_le := hbc.minAlign_le ∘ hab.minAlign_le
  vtables := hab.vtables.trans hbc.vtables
  new_vtables place hplace := by
    rcases hbc.new_vtables place hplace with hb | hc
    · exact (hab.new_vtables place hb).imp_right fun hle => Nat.le_trans hle hbc.used_mono
    · exact .inr hc

/-- The phase, the fields and the count of shared vtables do not matter. -/
private theorem Grows.congr {d e e' : Draft} (h : d.Grows e) (hwritten : e'.written = e.written)
    (halign : e'.minAlign = e.minAlign) (hforce : e'.forceDefaults = e.forceDefaults)
    (hvtables : e'.vtables = e.vtables) : d.Grows e' where
  forceDefaults := hforce.trans h.forceDefaults
  written := hwritten ▸ h.written
  used_le := by simpa only [used, hwritten] using h.used_le
  minAlign_le := halign ▸ h.minAlign_le
  vtables := hvtables ▸ h.vtables
  new_vtables := by simpa only [used, hvtables, hwritten] using h.new_vtables

/-- Bytes are put in front of what is there. -/
theorem grows_of_put {d d' : Draft} {bytes : Bytes} (h : d.put bytes = .ok d') : d.Grows d' := by
  obtain ⟨hfits, rfl⟩ := put_eq_ok_iff.mp h
  have hused : (bytes ++ d.written).length ≤ maxBufferSize := by
    rw [List.length_append, length_written, Nat.add_comm]
    exact hfits
  exact ⟨rfl, List.suffix_append _ _, fun _ => hused, id, List.prefix_rfl,
    fun _ hplace => .inl hplace⟩

/-- Noting an alignment that is no wider than all others changes nothing that matters. -/
private theorem Grows.of_noteAlign {d d' : Draft} {alignment : Nat}
    (halign : d.minAlign ≤ 8 → alignment ≤ 8) (h : (d.noteAlign alignment).Grows d') :
    d.Grows d' where
  forceDefaults := h.forceDefaults
  written := h.written
  used_le := h.used_le
  minAlign_le := fun hle => h.minAlign_le (Nat.max_le.mpr ⟨hle, halign hle⟩)
  vtables := h.vtables
  new_vtables := h.new_vtables

private theorem grows_of_pad {d d' : Draft} {size alignment : Nat}
    (halign : d.minAlign ≤ 8 → alignment ≤ 8) (h : d.pad size alignment = .ok d') : d.Grows d' :=
  (grows_of_put h).of_noteAlign halign

/-- Aligned bytes are put in front of what is there. -/
private theorem grows_of_putAligned {d d' : Draft} {bytes : Bytes} {alignment : Nat}
    (halign : d.minAlign ≤ 8 → alignment ≤ 8) (h : d.putAligned bytes alignment = .ok d') :
    d.Grows d' :=
  (grows_of_put h).of_noteAlign halign

private theorem grows_of_putReference {d d' : Draft} {target : Offset}
    (h : d.putReference target = .ok d') : d.Grows d' := by
  obtain ⟨p, hpad, -, -, hput⟩ := putReference_eq_ok_iff.mp h
  exact (grows_of_pad (fun _ => by decide) hpad).trans (grows_of_put hput)

/-- A vtable is put in front of what is there, or only referred to; its place is noted behind
the others. -/
theorem grows_of_linkVTable {d d' : Draft} {vtable : Bytes}
    (h : d.linkVTable (d.used + 4) vtable = .ok d') : d.Grows d' := by
  rw [linkVTable] at h
  split at h
  · obtain ⟨hforce, hwritten, hused, halign, hvtables, hnew⟩ := grows_of_put h
    exact ⟨hforce, hwritten, hused, halign, hvtables, hnew⟩
  · -- The place of the new vtable is counted from its front, so it is all that is written.
    have hused := (grows_of_put h).used_le
    obtain ⟨-, rfl⟩ := put_eq_ok_iff.mp h
    refine ⟨rfl, List.suffix_append _ _, hused, id, List.prefix_append _ _, fun place hplace => ?_⟩
    rcases List.mem_append.mp hplace with hold | hnew
    · exact .inl hold
    · rw [List.mem_singleton.mp hnew]
      simp only [used, List.length_append, length_vtableReference]
      exact .inr (by omega)

/-- **Every call but a reset only puts bytes in front.** -/
theorem grows_of_perform {d d' : Draft} {call : Call} {reply : Reply} (hcall : call ≠ .reset)
    (h : d.perform call = .ok (reply, d')) : d.Grows d' := by
  cases step_of_perform h with
  | startObject hidle hfields hpad =>
    exact (grows_of_pad (fun _ => by decide) hpad).congr rfl rfl rfl rfl
  | elided => exact Grows.refl d
  | pushSlot hcheck hwritten hput =>
    exact (grows_of_putAligned (fun _ => ScalarType.width_le _) hput).congr rfl rfl rfl rfl
  | pushSlotOffset hcheck href => exact (grows_of_putReference href).congr rfl rfl rfl rfl
  | endObject hphase hclose =>
    obtain ⟨p, hpad, -, -, -, vtable, -, closed, hlink, -, rfl⟩ := closeObject_eq_ok_iff.mp hclose
    have hgrows := (grows_of_pad (fun _ => by decide) hpad).trans (grows_of_linkVTable hlink)
    exact hgrows.congr rfl rfl rfl rfl
  | createString hidle hput | createByteVector hidle hput =>
    exact grows_of_putAligned (fun _ => by decide) (putVector_eq_ok_iff.mp hput).2
  | finish hidle hpad href =>
    have hgrows := (grows_of_pad id hpad).trans (grows_of_putReference href)
    exact hgrows.congr rfl rfl rfl rfl
  | reset => exact absurd rfl hcall
  | finishedData | takeFinishedData => exact Grows.refl d

/-- No call changes whether defaults are forced, not even a reset. -/
theorem forceDefaults_of_perform {d d' : Draft} {call : Call} {reply : Reply}
    (h : d.perform call = .ok (reply, d')) : d'.forceDefaults = d.forceDefaults := by
  by_cases hcall : call = .reset
  · subst hcall
    cases h
    rfl
  · exact (grows_of_perform hcall h).forceDefaults

/-- The vtables lie in what is written. -/
def VTablesWritten (d : Draft) : Prop := ∀ place ∈ d.vtables, place ≤ d.used

theorem vtablesWritten_empty (forceDefaults : Bool) : (empty forceDefaults).VTablesWritten :=
  List.forall_mem_nil _

theorem VTablesWritten.pad {d p : Draft} {size alignment : Nat} (h : d.VTablesWritten)
    (hpad : d.pad size alignment = .ok p) : p.VTablesWritten := by
  obtain ⟨-, rfl⟩ := put_eq_ok_iff.mp hpad
  intro place hplace
  refine Nat.le_trans (h place hplace) ?_
  simp only [used, noteAlign, List.length_append, Nat.le_add_left]

/-- A call keeps the vtables written, or forgets them with everything else. -/
theorem VTablesWritten.perform {d d' : Draft} {call : Call} {reply : Reply}
    (h : d.VTablesWritten) (hperform : d.perform call = .ok (reply, d')) : d'.VTablesWritten := by
  by_cases hcall : call = .reset
  · subst hcall
    cases hperform
    exact vtablesWritten_empty _
  · have hgrows := grows_of_perform hcall hperform
    intro place hplace
    rcases hgrows.new_vtables place hplace with hold | hnew
    · exact Nat.le_trans (h place hold) hgrows.used_mono
    · exact hnew

/-! ### Runs -/

/-- What a sequence of calls does to a draft, up to the first call that fails. -/
def run : List Call → Draft → Except Failure (List Reply × Draft)
  | [], d => .ok ([], d)
  | call :: calls, d => do
    let (reply, d) ← d.perform call
    let (replies, d) ← run calls d
    return (reply :: replies, d)

/-- A run is its first call, then the run of the others. -/
theorem run_cons_eq_ok_iff {d d' : Draft} {call : Call} {calls : List Call}
    {replies : List Reply} :
    d.run (call :: calls) = .ok (replies, d') ↔ ∃ reply e rest,
      d.perform call = .ok (reply, e) ∧ e.run calls = .ok (rest, d') ∧
        replies = reply :: rest := by
  simp only [run, bind_eq_ok_iff]
  constructor
  · rintro ⟨⟨reply, e⟩, hperform, ⟨rest, f⟩, hrest, heq⟩
    cases heq
    exact ⟨reply, e, rest, hperform, hrest, rfl⟩
  · rintro ⟨reply, e, rest, hperform, hrest, rfl⟩
    exact ⟨(reply, e), hperform, (rest, d'), hrest, rfl⟩

/-- The last call of a run is performed on some draft. -/
theorem perform_of_run_concat {d d' : Draft} {calls : List Call} {call : Call}
    {replies : List Reply} (hrun : d.run (calls ++ [call]) = .ok (replies, d')) :
    ∃ e reply, perform call e = .ok (reply, d') := by
  induction calls generalizing d replies with
  | nil =>
    obtain ⟨⟨reply, e⟩, hperform, hrest⟩ := bind_eq_ok_iff.mp hrun
    cases hrest
    exact ⟨d, reply, hperform⟩
  | cons first calls ih =>
    obtain ⟨reply, e, rest, -, hlast, -⟩ := run_cons_eq_ok_iff.mp hrun
    exact ih hlast

/-- **A run without a reset only puts bytes in front.** -/
theorem grows_of_run {d d' : Draft} {calls : List Call} {replies : List Reply}
    (hreset : .reset ∉ calls) (hrun : d.run calls = .ok (replies, d')) : d.Grows d' := by
  induction calls generalizing d replies with
  | nil =>
    cases hrun
    exact Grows.refl _
  | cons call calls ih =>
    obtain ⟨reply, e, rest, hperform, hrest, rfl⟩ := run_cons_eq_ok_iff.mp hrun
    obtain ⟨hcall, hcalls⟩ := not_or.mp (mt List.mem_cons.mpr hreset)
    exact (grows_of_perform (Ne.symm hcall) hperform).trans (ih hcalls hrest)

/-- Calls keep the vtables written. -/
theorem VTablesWritten.run {d d' : Draft} {calls : List Call} {replies : List Reply}
    (h : d.VTablesWritten) (hrun : d.run calls = .ok (replies, d')) : d'.VTablesWritten := by
  induction calls generalizing d replies with
  | nil =>
    cases hrun
    exact h
  | cons call calls ih =>
    obtain ⟨reply, e, rest, hperform, hrest, rfl⟩ := run_cons_eq_ok_iff.mp hrun
    exact ih (h.perform hperform) hrest

theorem forceDefaults_of_run {d d' : Draft} {calls : List Call} {replies : List Reply}
    (hrun : d.run calls = .ok (replies, d')) : d'.forceDefaults = d.forceDefaults := by
  induction calls generalizing d replies with
  | nil =>
    cases hrun
    rfl
  | cons call calls ih =>
    obtain ⟨reply, e, rest, hperform, hrest, rfl⟩ := run_cons_eq_ok_iff.mp hrun
    exact (ih hrest).trans (forceDefaults_of_perform hperform)

end Draft

end EnvelopeWire
