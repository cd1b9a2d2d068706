import EnvelopeWire.Tool.Directory
import EnvelopeWire.Tool.Run

/-!
# Jobs on a file system

A job asks for files and may fail. What comes of it depends on who answers, which is a `FileSystem`:
anything that reads and writes whole files, and that a write which is refused leaves as it is. A
`Directory` is one.

What holds of a job for every file system is put together from what holds of its steps.

* `Job.outcome_bind_eq_ok_iff`: a sequence of jobs succeeds exactly when each of them does.
* `Job.Reads`: a job that writes nothing.
* `Job.Atomic`: a job that leaves everything as it is when it fails.
* `Job.Agrees`: two jobs that differ in their results at most.
-/

namespace EnvelopeWire

/-! ### File systems -/

/-- What answers the requests of a task, and is in a state `σ`. A write that is refused leads to no
other state. -/
structure FileSystem (σ : Type) where
  read : σ → String → Except SystemError Bytes
  write : σ → String → Bytes → Except SystemError σ

/-- What is written in a file is read from it. -/
def FileSystem.Lawful {σ : Type} (fs : FileSystem σ) : Prop :=
  ∀ s path bytes s', fs.write s path bytes = .ok s' → fs.read s' path = .ok bytes

/-- The files of a directory. -/
def Directory.fileSystem : FileSystem Directory where
  read := Directory.read
  write := Directory.write

section Tasks

variable {σ α β : Type}

/-- Performs a task on a file system, from the state `s` on. -/
def Task.runOn (fs : FileSystem σ) (s : σ) : Task α → α × σ
  | .done a => (a, s)
  | .read path next => (next (fs.read s path)).runOn fs s
  | .write path bytes next =>
    match fs.write s path bytes with
    | .ok s => (next (.ok ())).runOn fs s
    | .error e => (next (.error e)).runOn fs s

/-- A task is performed on the files of a directory in the same way. -/
theorem Task.run_eq_runOn (d : Directory) (t : Task α) :
    t.run d = t.runOn Directory.fileSystem d := by
  induction t generalizing d with
  | done a => rfl
  | read path next ih => exact ih _ d
  | write path bytes next ih =>
    simp only [Task.run, Task.runOn, Directory.fileSystem]
    cases d.write path bytes with
    | ok d => exact ih _ d
    | error e => exact ih _ d

/-- The second of two tasks runs on what the first one leaves. -/
private theorem Task.runOn_bind (fs : FileSystem σ) (s : σ) (t : Task α) (f : α → Task β) :
    (t.bind f).runOn fs s = (f (t.runOn fs s).1).runOn fs (t.runOn fs s).2 := by
  induction t generalizing s with
  | done a => rfl
  | read path next ih => exact ih _ s
  | write path bytes next ih =>
    rw [Task.bind, runOn, runOn]
    cases fs.write s path bytes with
    | ok s => exact ih _ s
    | error e => exact ih _ s

end Tasks

/-! ### Outcomes -/

namespace Job

variable {σ α β : Type} {fs : FileSystem σ} {s s' t : σ} {x : Job α} {f : α → Job β}

/-- What a job gives, and the state that it leads to. -/
def outcome (fs : FileSystem σ) (s : σ) (x : Job α) : Except ToolError α × σ := x.run.runOn fs s

/-- After a job that goes through, the next one runs on what it leaves. -/
private theorem outcome_bind_of_ok {a : α} (h : outcome fs s x = (.ok a, s')) :
    outcome fs s (x >>= f) = outcome fs s' (f a) := by
  refine (Task.runOn_bind fs s x.run _).trans ?_
  rw [show x.run.runOn fs s = _ from h]
  rfl

/-- After a job that fails, nothing runs. -/
private theorem outcome_bind_of_error {e : ToolError} (h : outcome fs s x = (.error e, s')) :
    outcome fs s (x >>= f) = (.error e, s') := by
  refine (Task.runOn_bind fs s x.run _).trans ?_
  rw [show x.run.runOn fs s = _ from h]
  rfl

/-- The first of two jobs fails, and so do both, or it goes through and the second one follows. -/
private theorem outcome_bind_cases (fs : FileSystem σ) (s : σ) (x : Job α) :
    (∃ e s', outcome fs s x = (.error e, s') ∧ ∀ {β : Type} (f : α → Job β),
      outcome fs s (x >>= f) = (.error e, s')) ∨
    ∃ a s', outcome fs s x = (.ok a, s') ∧ ∀ {β : Type} (f : α → Job β),
      outcome fs s (x >>= f) = outcome fs s' (f a) := by
  cases hx : outcome fs s x with | mk result s' => ?_
  cases result with
  | error e => exact .inl ⟨e, s', rfl, fun f => outcome_bind_of_error hx⟩
  | ok a => exact .inr ⟨a, s', rfl, fun f => outcome_bind_of_ok hx⟩

/-- A sequence of jobs succeeds exactly when each of them does. -/
theorem outcome_bind_eq_ok_iff {b : β} :
    outcome fs s (x >>= f) = (.ok b, t) ↔
      ∃ a s', outcome fs s x = (.ok a, s') ∧ outcome fs s' (f a) = (.ok b, t) := by
  obtain ⟨e, s', hx, hbind⟩ | ⟨a, s', hx, hbind⟩ := outcome_bind_cases fs s x
  · simp [hx, hbind]
  · simp only [hx, hbind, Prod.mk.injEq, Except.ok.injEq]
    constructor
    · exact fun h => ⟨a, s', ⟨rfl, rfl⟩, h⟩
    · rintro ⟨_, _, ⟨rfl, rfl⟩, h⟩
      exact h

@[simp]
theorem outcome_ofExcept {ε : Type} (wrap : ε → ToolError) (r : Except ε α) :
    outcome fs s (ofExcept wrap r) = (r.mapError wrap, s) := by
  cases r <;> rfl

/-- Reading a file gives its contents, and leaves the files as they are. -/
@[simp]
theorem outcome_readBytes (wrap : ReadError → ToolError) (path : String) :
    outcome fs s (readBytes wrap path)
      = ((fs.read s path).mapError fun e => wrap (.system e), s) :=
  outcome_ofExcept _ (fs.read s path)

/-- A text file is read where its contents spell a text. -/
theorem outcome_readText_eq_ok_iff {wrap : ReadError → ToolError} {path text : String} :
    outcome fs s (readText wrap path) = (.ok text, t) ↔
      fs.read s path = .ok (utf8 text) ∧ t = s := by
  rw [readText, outcome_bind_eq_ok_iff, outcome_readBytes]
  constructor
  · rintro ⟨bytes, s', houtcome, htext⟩
    obtain ⟨hread, rfl⟩ := Prod.mk.inj houtcome
    cases hbytes : utf8? bytes with
    | none =>
      rw [hbytes] at htext
      cases htext
    | some text' =>
      rw [hbytes] at htext
      cases htext
      rw [← utf8?_eq_some_iff.mp hbytes]
      exact ⟨mapError_eq_ok_iff.mp hread, rfl⟩
  · rintro ⟨hread, rfl⟩
    refine ⟨utf8 text, t, by rw [hread]; rfl, ?_⟩
    rw [utf8?_utf8]
    rfl

private theorem outcome_writeBytes_of_ok {path : String} {bytes : Bytes}
    (h : fs.write s path bytes = .ok s') : outcome fs s (writeBytes path bytes) = (.ok (), s') := by
  change Task.runOn fs s (.write path bytes _) = _
  rw [Task.runOn, h]
  rfl

private theorem outcome_writeBytes_of_error {path : String} {bytes : Bytes} {e : SystemError}
    (h : fs.write s path bytes = .error e) :
    outcome fs s (writeBytes path bytes) = (.error (.unwritable path e), s) := by
  change Task.runOn fs s (.write path bytes _) = _
  rw [Task.runOn, h]
  rfl

theorem outcome_writeBytes_eq_ok_iff {path : String} {bytes : Bytes} {u : Unit} :
    outcome fs s (writeBytes path bytes) = (.ok u, t) ↔ fs.write s path bytes = .ok t := by
  cases hwrite : fs.write s path bytes with
  | ok s' => simp [outcome_writeBytes_of_ok hwrite]
  | error e => simp [outcome_writeBytes_of_error hwrite]

/-! ### What holds for every file system -/

/-- A job writes nothing. -/
def Reads (x : Job α) : Prop :=
  ∀ ⦃σ : Type⦄ (fs : FileSystem σ) (s : σ), (outcome fs s x).2 = s

/-- A job that fails leaves everything as it is. -/
def Atomic (x : Job α) : Prop :=
  ∀ ⦃σ : Type⦄ (fs : FileSystem σ) (s t : σ) (e : ToolError),
    outcome fs s x = (.error e, t) → t = s

/-- Two jobs do the same and fail alike. Where they succeed, their results may differ. -/
def Agrees (x y : Job α) : Prop :=
  ∀ ⦃σ : Type⦄ (fs : FileSystem σ) (s : σ), (outcome fs s x).2 = (outcome fs s y).2 ∧
    (outcome fs s x).1.map (fun _ => ()) = (outcome fs s y).1.map fun _ => ()

theorem reads_pure (a : α) : Reads (pure a) := fun _ _ _ => rfl

private theorem reads_throw (e : ToolError) : Reads (throw e : Job α) := fun _ _ _ => rfl

theorem reads_ofExcept {ε : Type} (wrap : ε → ToolError) (r : Except ε α) :
    Reads (ofExcept wrap r) := by
  intro σ fs s
  rw [outcome_ofExcept]

/-- A file is only read. -/
theorem reads_readBytes (wrap : ReadError → ToolError) (path : String) :
    Reads (readBytes wrap path) := by
  intro σ fs s
  rw [outcome_readBytes]

/-- After a job that writes nothing, everything is as it was. -/
theorem Reads.eq_of_outcome (hx : Reads x) {result : Except ToolError α}
    (h : outcome fs s x = (result, s')) : s' = s := by
  have hstate := hx fs s
  rwa [h] at hstate

theorem Reads.bind (hx : Reads x) (hf : ∀ a, Reads (f a)) : Reads (x >>= f) := by
  intro σ fs s
  obtain ⟨e, s', h, hbind⟩ | ⟨a, s', h, hbind⟩ := outcome_bind_cases fs s x
  · rw [hbind, hx.eq_of_outcome h]
  · rw [hbind, hx.eq_of_outcome h]
    exact hf a fs s

/-- A text file is only read. -/
theorem reads_readText (wrap : ReadError → ToolError) (path : String) :
    Reads (readText wrap path) := by
  refine (reads_readBytes wrap path).bind fun bytes => ?_
  cases utf8? bytes with
  | some text => exact reads_pure text
  | none => exact reads_throw _

theorem Reads.atomic (h : Reads x) : Atomic x :=
  fun _ _ _ _ _ houtcome => h.eq_of_outcome houtcome

/-- A file is written or nothing is changed. -/
theorem atomic_writeBytes (path : String) (bytes : Bytes) : Atomic (writeBytes path bytes) := by
  intro σ fs s t e houtcome
  cases hwrite : fs.write s path bytes with
  | ok s' =>
    rw [outcome_writeBytes_of_ok hwrite] at houtcome
    cases houtcome
  | error e' =>
    rw [outcome_writeBytes_of_error hwrite] at houtcome
    cases houtcome
    rfl

/-- What is done after a job that writes nothing may be the first to write. -/
theorem Reads.bind_atomic (hx : Reads x) (hf : ∀ a, Atomic (f a)) : Atomic (x >>= f) := by
  intro σ fs s t e houtcome
  obtain ⟨e', s', h, hbind⟩ | ⟨a, s', h, hbind⟩ := outcome_bind_cases fs s x
  · rw [hbind, hx.eq_of_outcome h] at houtcome
    cases houtcome
    rfl
  · rw [hbind, hx.eq_of_outcome h] at houtcome
    exact hf a fs s t e houtcome

/-- A job may still work out its result when it has written. -/
theorem Atomic.bind_pure (hx : Atomic x) (r : α → β) : Atomic (x >>= fun a => pure (r a)) := by
  intro σ fs s t e houtcome
  obtain ⟨e', s', h, hbind⟩ | ⟨a, s', h, hbind⟩ := outcome_bind_cases fs s x
  · rw [hbind] at houtcome
    cases houtcome
    exact hx fs s _ _ h
  · rw [hbind] at houtcome
    cases houtcome

theorem agrees_pure (a b : α) : Agrees (pure a) (pure b) := fun _ _ _ => ⟨rfl, rfl⟩

/-- What agrees does so after the same job. -/
theorem Agrees.bind {g : α → Job β} (h : ∀ a, Agrees (f a) (g a)) : Agrees (x >>= f) (x >>= g) := by
  intro σ fs s
  obtain ⟨e, s', -, hbind⟩ | ⟨a, s', -, hbind⟩ := outcome_bind_cases fs s x
  · rw [hbind, hbind]
    exact ⟨rfl, rfl⟩
  · rw [hbind, hbind]
    exact h a fs s'

/-- Jobs that agree may show their results in different ways. -/
theorem Agrees.bind_pure {y : Job α} (h : Agrees x y) (r r' : α → β) :
    Agrees (x >>= fun a => pure (r a)) (y >>= fun a => pure (r' a)) := by
  intro σ fs s
  obtain ⟨hstate, hresult⟩ := h fs s
  obtain ⟨e, s', hx, hbind⟩ | ⟨a, s', hx, hbind⟩ := outcome_bind_cases fs s x <;>
    obtain ⟨e', t', hy, hbind'⟩ | ⟨a', t', hy, hbind'⟩ := outcome_bind_cases fs s y <;>
    rw [hx, hy] at hstate hresult <;> rw [hbind, hbind']
  · exact ⟨hstate, congrArg Except.error (Except.error.inj hresult)⟩
  · cases hresult
  · cases hresult
  · exact ⟨hstate, rfl⟩

end Job

end EnvelopeWire
