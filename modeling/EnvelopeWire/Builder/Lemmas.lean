import EnvelopeWire.Builder.Basic

/-!
# What the writing steps write

Each step that writes puts bytes in front of what is written and leaves the rest of the builder
as the step says. How many cells the storage has, and what is in the cells that are not written,
shows nowhere.

* `padding_spec`, `padding_le`: the padding reaches the boundary, and is the least that does.
* `Builder.written_prepend`, `Builder.prepend_eq_error_iff`: bytes are put in front exactly when
  they fit under the limit.
-/

namespace EnvelopeWire

/-! ### Padding -/

/-- The padding never takes a whole boundary. -/
theorem padding_lt {size alignment : Nat} (h : 0 < alignment) :
    padding size alignment < alignment :=
  Nat.mod_lt _ h

/-- The padding brings the size to a boundary. -/
theorem padding_spec (size : Nat) {alignment : Nat} (h : 0 < alignment) :
    (size + padding size alignment) % alignment = 0 := by
  have hlt := Nat.mod_lt size h
  have hsum : size + (alignment - size % alignment) = alignment * (size / alignment + 1) := by
    have hdiv := Nat.div_add_mod size alignment
    rw [Nat.mul_add]
    omega
  rw [padding, Nat.add_mod_mod, hsum]
  exact Nat.mul_mod_right _ _

/-- No smaller number of bytes reaches a boundary. -/
theorem padding_le {size alignment n : Nat} (h : (size + n) % alignment = 0) :
    padding size alignment ≤ n := by
  rcases Nat.eq_zero_or_pos alignment with rfl | hpos
  · simp [padding]
  · have hlt := Nat.mod_lt size hpos
    by_cases hzero : size % alignment = 0
    · simp [padding, hzero]
    · have hpad : padding size alignment = alignment - size % alignment :=
        Nat.mod_eq_of_lt (by omega)
      have hdvd : alignment ∣ size % alignment + n := by
        rw [Nat.dvd_iff_mod_eq_zero, Nat.mod_add_mod, h]
      have hle := Nat.le_of_dvd (by omega) hdvd
      omega

/-- No padding is needed exactly on a boundary. -/
theorem padding_eq_zero_iff {size alignment : Nat} (h : 0 < alignment) :
    padding size alignment = 0 ↔ size % alignment = 0 := by
  refine ⟨fun hzero => ?_, fun hzero => Nat.le_zero.mp (padding_le hzero)⟩
  have hspec := padding_spec size h
  rwa [hzero] at hspec

/-- A multiple of the boundary does not change the padding. -/
theorem padding_add_left {size n alignment : Nat} (h : n % alignment = 0) :
    padding (size + n) alignment = padding size alignment := by
  rw [padding, padding, Nat.add_mod, h, Nat.add_zero, Nat.mod_mod]

/-! ### The rules -/

namespace Phase

variable {phase : Phase} {u : Unit}

/-- The check for an idle builder passes exactly when the builder is idle. -/
theorem checkIdle_eq_ok_iff {op : Operation} : phase.checkIdle op = .ok u ↔ phase = .idle := by
  cases phase <;> simp [checkIdle]

/-- An object may be started by an idle builder, with few enough slots. -/
theorem checkStart_eq_ok_iff {fields : UInt16} :
    phase.checkStart fields = .ok u ↔ phase = .idle ∧ fields.toNat ≤ maxFields := by
  cases phase <;> simp [checkStart]

/-- A slot may be pushed to while an object is open that has it, unless it is written already. -/
theorem checkSlot_eq_ok_iff {marks : List FieldMark} {op : Operation} {slot : UInt16} :
    phase.checkSlot marks op slot = .ok u ↔
      ∃ start fields, phase = .building start fields ∧ slot < fields ∧
        ∀ mark ∈ marks, mark.slot ≠ slot := by
  cases phase with
  | building start fields =>
    have hchecks : (building start fields).checkSlot marks op slot = .ok u ↔
        slot < fields ∧ ∀ mark ∈ marks, mark.slot ≠ slot := by
      simp [checkSlot, bind_eq_ok_iff]
    rw [hchecks]
    constructor
    · exact fun h => ⟨start, fields, rfl, h⟩
    · rintro ⟨_, _, hphase, h⟩
      cases hphase
      exact h
  | _ => simp [checkSlot]

theorem openStart_eq_ok_iff {start : Nat} :
    phase.openStart = .ok start ↔ ∃ fields, phase = .building start fields := by
  cases phase <;> simp [openStart]

theorem checkFinished_eq_ok_iff {op : Operation} :
    phase.checkFinished op = .ok u ↔ phase = .finished := by
  simp [checkFinished]

end Phase

namespace Builder

/-! ### Bytes -/

@[simp]
theorem length_written (b : Builder) : b.written.length = b.used :=
  b.storage.length_written

@[simp]
theorem written_withOptions (options : BuilderOptions) : (withOptions options).written = [] :=
  Storage.written_allocate _

/-- A step on the storage changes nothing else. -/
theorem onStorage_eq_ok {b : Builder} {f : Storage → Except Failure Storage} {s : Storage}
    (h : f b.storage = .ok s) : b.onStorage f = .ok { b with storage := s } := by
  rw [onStorage, h]
  rfl

/-- Bytes that fit are put in front, and nothing else changes. -/
theorem written_prepend {b : Builder} {bytes : Bytes}
    (h : b.used + bytes.length ≤ maxBufferSize) :
    ∃ s, b.prepend bytes = .ok { b with storage := s } ∧ s.written = bytes ++ b.written := by
  obtain ⟨s, hs, hwritten⟩ := Storage.written_prepend h
  exact ⟨s, onStorage_eq_ok hs, hwritten⟩

/-- Bytes are refused exactly when they do not fit. -/
theorem prepend_eq_error_iff {b : Builder} {bytes : Bytes} {e : Failure} :
    b.prepend bytes = .error e ↔ maxBufferSize < b.used + bytes.length ∧ e = .bufferLimit := by
  rw [used, ← Storage.prepend_eq_error_iff, prepend, onStorage]
  cases b.storage.prepend bytes <;> simp [Except.map]

end Builder

end EnvelopeWire
