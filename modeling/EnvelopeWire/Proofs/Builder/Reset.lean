import EnvelopeWire.Proofs.Builder.View

/-!
# A builder after a reset

A reset keeps the cells of a builder with whatever they hold. A caller who goes on with it cannot
tell it from a fresh builder, whatever number of cells that one starts with: every call gives the
same reply or the same failure, and leaves the same number of bytes and vtables behind.

* `Builder.trace_draft`: a builder shows what its draft does.
* `Builder.trace_eq_of_draft_eq`: builders with the same draft show the same from then on.
-/

namespace EnvelopeWire

/-- What a caller can ask of a builder at any time. -/
structure Snapshot where
  used : Nat
  vtableCount : Nat
  vtablesReused : Nat
  isFinished : Bool
deriving DecidableEq, Repr

/-- What a sequence of calls shows: each reply with what can be asked after it, up to the first
call that fails, and the failure of that one. -/
structure Trace where
  seen : List (Reply × Snapshot)
  failure : Option Failure
deriving DecidableEq, Repr

/-- The trace of a call that goes through, with the trace of the calls after it. -/
def Trace.after (reply : Reply) (snapshot : Snapshot) (t : Trace) : Trace :=
  { t with seen := (reply, snapshot) :: t.seen }

/-! ### Traces of drafts -/

namespace Draft

/-- What a caller can ask of a draft. -/
def snapshot (d : Draft) : Snapshot where
  used := d.used
  vtableCount := d.vtables.length
  vtablesReused := d.vtablesReused
  isFinished := d.phase == .finished

/-- What a sequence of calls on a draft shows. -/
def trace : List Call → Draft → Trace
  | [], _ => { seen := [], failure := none }
  | call :: calls, d =>
    match d.perform call with
    | .ok (reply, d) => (trace calls d).after reply d.snapshot
    | .error e => { seen := [], failure := some e }

end Draft

/-! ### Traces of builders -/

namespace Builder

/-- What a caller can ask of a builder. -/
def snapshot (b : Builder) : Snapshot where
  used := b.used
  vtableCount := b.vtableCount
  vtablesReused := b.vtablesReused
  isFinished := b.isFinished

/-- What a sequence of calls on a builder shows. -/
def trace : List Call → Builder → Trace
  | [], _ => { seen := [], failure := none }
  | call :: calls, b =>
    match call.run b with
    | .ok (reply, b) => (trace calls b).after reply b.snapshot
    | .error e => { seen := [], failure := some e }

private theorem snapshot_draft (b : Builder) : b.draft.snapshot = b.snapshot := by
  rw [Draft.snapshot, used_draft]
  rfl

/-- The draft decides what calls show. -/
theorem trace_draft (calls : List Call) {b : Builder} (h : b.draft.VTablesWritten) :
    b.draft.trace calls = b.trace calls := by
  induction calls generalizing b with
  | nil => rfl
  | cons call calls ih =>
    rw [Draft.trace, trace, ← perform_draft call h]
    cases hcall : call.run b with
    | error e => rfl
    | ok p =>
      obtain ⟨reply, b'⟩ := p
      have hnext : b'.draft.VTablesWritten := h.perform (perform_of_run h hcall)
      change (b'.draft.trace calls).after reply b'.draft.snapshot = _
      rw [ih hnext, snapshot_draft]

/-- Builders with the same draft show the same from then on. -/
theorem trace_eq_of_draft_eq (calls : List Call) {b c : Builder} (hdraft : b.draft = c.draft)
    (h : b.draft.VTablesWritten) : b.trace calls = c.trace calls := by
  rw [← trace_draft calls h, hdraft]
  exact trace_draft calls (hdraft ▸ h)

/-- **A builder that is reset shows what a fresh one shows.** After any history, with an object
left open or the buffer finished or neither, and however many cells the fresh builder starts
with, all calls give the same replies, snapshots and failure from then on. -/
theorem trace_reset {options : BuilderOptions} {history : List Call} {replies : List Reply}
    {b : Builder} (hrun : runCalls history (withOptions options) = .ok (replies, b)) :
    ∃ cleared, Build.reset b = .ok ((), cleared) ∧
      ∀ capacity,
        cleared.snapshot = (withOptions ⟨capacity, options.forceDefaults⟩).snapshot ∧
        ∀ calls, cleared.trace calls
          = (withOptions ⟨capacity, options.forceDefaults⟩).trace calls := by
  refine ⟨_, rfl, fun capacity => ?_⟩
  have hhistory := draft_of_run (by rw [draft_withOptions]; exact Draft.vtablesWritten_empty _) hrun
  have hforce : b.draft.forceDefaults = options.forceDefaults := by
    rw [Draft.forceDefaults_of_run hhistory, draft_withOptions]
    rfl
  -- The cells keep their old bytes, but none of them is written any longer.
  have hcleared : Builder.draft { b with
      storage := b.storage.clear
      minAlign := 1
      phase := .idle
      fields := []
      vtables := []
      vtablesReused := 0 } = Draft.empty options.forceDefaults := by
    rw [← hforce]
    exact congrArg (fun w => { Draft.empty b.forceDefaults with written := w })
      b.storage.written_clear
  have hfresh := draft_withOptions ⟨capacity, options.forceDefaults⟩
  have hsame := hcleared.trans hfresh.symm
  constructor
  · rw [← snapshot_draft, ← snapshot_draft]
    exact congrArg Draft.snapshot hsame
  · intro calls
    refine trace_eq_of_draft_eq calls hsame ?_
    rw [hcleared]
    exact Draft.vtablesWritten_empty _

/-- A vtable is written and an object is open when the builder is reset. -/
theorem trace_reset_of_open_object :
    ∃ replies b, runCalls [.startObject 1, .pushSlot .u16 0 (7 : UInt16) (0 : UInt16), .endObject,
        .startObject 2, .pushSlot .u8 0 (7 : UInt8) (0 : UInt8)] (withOptions ⟨64, true⟩)
          = .ok (replies, b) ∧
      ∃ cleared, Build.reset b = .ok ((), cleared) ∧
        cleared.trace [.startObject 1, .pushSlot .u16 0 (7 : UInt16) (0 : UInt16), .endObject]
          = (withOptions ⟨0, true⟩).trace
            [.startObject 1, .pushSlot .u16 0 (7 : UInt16) (0 : UInt16), .endObject] := by
  obtain ⟨⟨replies, b⟩, hrun, -⟩ := exists_ok_of_any (p := fun _ => true)
    (x := runCalls [.startObject 1, .pushSlot .u16 0 (7 : UInt16) (0 : UInt16), .endObject,
      .startObject 2, .pushSlot .u8 0 (7 : UInt8) (0 : UInt8)] (withOptions ⟨64, true⟩))
    (by decide +kernel)
  obtain ⟨cleared, hreset, hsame⟩ := trace_reset hrun
  exact ⟨replies, b, hrun, cleared, hreset, (hsame 0).2 _⟩

end Builder

end EnvelopeWire
