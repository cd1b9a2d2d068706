import EnvelopeWire.Proofs.Tool.Places

/-!
# What a run does to files

A run of the tool reads its files first, and only then writes at most one. How it is to report has
no part in that: quiet or not, in whatever format, a run leaves the same files and ends with the
same exit code. A run that fails leaves all files as they were.

* `Invocation.agrees_job`: runs that differ in how they report agree.
* `Invocation.atomic_job`: a run that fails changes nothing.
* `Invocation.effects`: all that a run does to files, on any file system, and what the files of a
  directory are afterwards.
-/

namespace EnvelopeWire

/-! ### What is read -/

section Reading

variable {σ : Type} {fs : FileSystem σ} {s t : σ}

/-- The settings that a run goes by: those in the file that is named, or the default ones. -/
def FileSystem.Configures (fs : FileSystem σ) (s : σ) (config : Option String)
    (settings : Settings) : Prop :=
  match config with
  | none => settings = {}
  | some path => ∃ text, fs.read s path = .ok (utf8 text) ∧ Settings.ofToml text = .ok settings

/-- The description in the file `input` encodes to `bytes`. -/
def FileSystem.Encodes (fs : FileSystem σ) (s : σ) (options : BuilderOptions) (input : String)
    (bytes : Bytes) : Prop :=
  ∃ text description, fs.read s input = .ok (utf8 text) ∧
    Description.ofToml text = .ok description ∧ description.encode options = .ok bytes

theorem outcome_ofExcept_eq_ok_iff {ε α : Type} {wrap : ε → ToolError} {r : Except ε α} {a : α} :
    Job.outcome fs s (Job.ofExcept wrap r) = (.ok a, t) ↔ r = .ok a ∧ t = s := by
  rw [Job.outcome_ofExcept, Prod.mk.injEq, mapError_eq_ok_iff, eq_comm (a := s)]

/-- The settings that are loaded are those that a run is configured with. -/
private theorem outcome_load_eq_ok_iff {config : Option String} {settings : Settings} :
    Job.outcome fs s (Settings.load config) = (.ok settings, t) ↔
      fs.Configures s config settings ∧ t = s := by
  cases config with
  | none =>
    change (Except.ok ({} : Settings), s) = (.ok settings, t) ↔ _
    simp [FileSystem.Configures, eq_comm]
  | some path =>
    simp only [Settings.load, Job.outcome_bind_eq_ok_iff, Job.outcome_readText_eq_ok_iff,
      outcome_ofExcept_eq_ok_iff, FileSystem.Configures]
    constructor
    · rintro ⟨text, s', ⟨hread, rfl⟩, hsettings, rfl⟩
      exact ⟨⟨text, hread, hsettings⟩, rfl⟩
    · rintro ⟨⟨text, hread, hsettings⟩, rfl⟩
      exact ⟨text, t, ⟨hread, rfl⟩, hsettings, rfl⟩

/-- A description is encoded exactly when its file holds one that encodes. -/
theorem outcome_encodeFile_eq_ok_iff {options : BuilderOptions} {input : String} {bytes : Bytes} :
    Job.outcome fs s (encodeFile options input) = (.ok bytes, t) ↔
      fs.Encodes s options input bytes ∧ t = s := by
  simp only [encodeFile, Job.outcome_bind_eq_ok_iff, Job.outcome_readText_eq_ok_iff,
    outcome_ofExcept_eq_ok_iff, FileSystem.Encodes]
  constructor
  · rintro ⟨text, _, ⟨hread, rfl⟩, description, _, ⟨hdescription, rfl⟩, hencode, rfl⟩
    exact ⟨⟨text, description, hread, hdescription, hencode⟩, rfl⟩
  · rintro ⟨⟨text, description, hread, hdescription, hencode⟩, rfl⟩
    exact ⟨text, t, ⟨hread, rfl⟩, description, t, ⟨hdescription, rfl⟩, hencode, rfl⟩

end Reading

private theorem reads_load (config : Option String) : (Settings.load config).Reads := by
  cases config with
  | none => exact Job.reads_pure _
  | some path => exact (Job.reads_readText _ _).bind fun _ => Job.reads_ofExcept _ _

private theorem reads_encodeFile (options : BuilderOptions) (input : String) :
    (encodeFile options input).Reads :=
  (Job.reads_readText _ _).bind fun _ =>
    (Job.reads_ofExcept _ _).bind fun _ => Job.reads_ofExcept _ _

theorem reads_readBuffer (path : String) (hexInput : Bool) : (readBuffer path hexInput).Reads := by
  cases hexInput with
  | true => exact (Job.reads_readText _ _).bind fun _ => Job.reads_ofExcept _ _
  | false => exact Job.reads_readBytes _ _

/-! ### Runs -/

/-- The file that a command is told to write. -/
def Command.output? : Command → Option String
  | encode _ output => output
  | inspect _ _ => none

private theorem Command.exists_of_output?_eq_some {c : Command} {path : String}
    (h : c.output? = some path) : ∃ input, c = .encode input (some path) := by
  cases c with
  | encode input output =>
    obtain rfl : output = some path := h
    exact ⟨input, rfl⟩
  | inspect file hexInput => cases h

namespace Invocation

variable {i j : Invocation} {settings : Settings} {input path file : String} {hexInput : Bool}

/-- Encoding without a file to write to. -/
theorem perform_encode (h : i.command = .encode input none) :
    i.perform settings = encodeFile settings.builder input >>= fun bytes =>
      pure (encodeOutput (i.outputFormat settings) bytes none) := by
  rw [perform, h]

/-- Encoding to a file. -/
private theorem perform_encode_to (h : i.command = .encode input (some path)) :
    i.perform settings = encodeFile settings.builder input >>= fun bytes =>
      Job.writeBytes path bytes >>= fun _ =>
        pure (encodeOutput (i.outputFormat settings) bytes (some path)) := by
  rw [perform, h]

/-- Inspecting a buffer. -/
theorem perform_inspect (h : i.command = .inspect file hexInput) :
    i.perform settings = readBuffer file hexInput >>= fun bytes =>
      Job.ofExcept (.notAnEnvelope file) (Report.ofBuffer bytes) >>= fun report =>
        pure (inspectOutput (i.outputFormat settings) bytes report) := by
  rw [perform, h]

/-- Only a command that is told where to write does so. -/
private theorem reads_perform (h : i.command.output? = none) : (i.perform settings).Reads := by
  cases hcommand : i.command with
  | encode input output =>
    rw [hcommand] at h
    obtain rfl : output = none := h
    rw [perform_encode hcommand]
    exact (reads_encodeFile _ _).bind fun _ => Job.reads_pure _
  | inspect file hexInput =>
    rw [perform_inspect hcommand]
    exact (reads_readBuffer _ _).bind fun _ =>
      (Job.reads_ofExcept _ _).bind fun _ => Job.reads_pure _

/-- A command changes nothing unless it goes through, because the file is written last. -/
private theorem atomic_perform (i : Invocation) (settings : Settings) :
    (i.perform settings).Atomic := by
  cases houtput : i.command.output? with
  | none => exact (reads_perform houtput).atomic
  | some path =>
    obtain ⟨input, hcommand⟩ := Command.exists_of_output?_eq_some houtput
    rw [perform_encode_to hcommand]
    exact (reads_encodeFile _ _).bind_atomic fun bytes =>
      (Job.atomic_writeBytes path bytes).bind_pure _

private theorem agrees_perform (h : j.command = i.command) (settings : Settings) :
    (j.perform settings).Agrees (i.perform settings) := by
  cases hcommand : i.command with
  | encode input output =>
    rw [hcommand] at h
    cases output with
    | none =>
      rw [perform_encode h, perform_encode hcommand]
      exact .bind fun _ => Job.agrees_pure _ _
    | some path =>
      rw [perform_encode_to h, perform_encode_to hcommand]
      exact .bind fun _ => .bind fun _ => Job.agrees_pure _ _
  | inspect file hexInput =>
    rw [hcommand] at h
    rw [perform_inspect h, perform_inspect hcommand]
    exact .bind fun _ => .bind fun _ => Job.agrees_pure _ _

/-- **A run that fails leaves everything as it was.** -/
theorem atomic_job (i : Invocation) : i.job.Atomic :=
  (reads_load i.config).bind_atomic fun settings => (i.atomic_perform settings).bind_pure _

/-- **How a run is to report has no part in what it does**, and in how it fails. -/
theorem agrees_job (hconfig : j.config = i.config) (hcommand : j.command = i.command) :
    j.job.Agrees i.job := by
  rw [job, job, hconfig]
  exact .bind fun settings => (agrees_perform hcommand settings).bind_pure _ _

private theorem reads_job (h : i.command.output? = none) : i.job.Reads :=
  (reads_load i.config).bind fun _ => (reads_perform h).bind fun _ => Job.reads_pure _

/-- A run that goes through prints the lines to show. -/
theorem outcome_job_eq_ok_iff {σ : Type} {fs : FileSystem σ} {s t : σ} {text : String} :
    Job.outcome fs s i.job = (.ok text, t) ↔ ∃ settings lines,
      fs.Configures s i.config settings ∧
        Job.outcome fs s (i.perform settings) = (.ok lines, t) ∧ i.printed lines = text := by
  simp only [job, Job.outcome_bind_eq_ok_iff, outcome_load_eq_ok_iff]
  constructor
  · rintro ⟨settings, _, ⟨hsettings, rfl⟩, lines, _, hlines, hprinted⟩
    cases hprinted
    exact ⟨settings, lines, hsettings, hlines, rfl⟩
  · rintro ⟨settings, lines, hsettings, hlines, rfl⟩
    exact ⟨settings, s, ⟨hsettings, rfl⟩, lines, t, hlines, rfl⟩

/-- Performing a command that is told where to write. -/
theorem outcome_perform_encode_to_iff {σ : Type} {fs : FileSystem σ} {s t : σ}
    {lines : List String} (h : i.command = .encode input (some path)) :
    Job.outcome fs s (i.perform settings) = (.ok lines, t) ↔ ∃ bytes,
      fs.Encodes s settings.builder input bytes ∧ fs.write s path bytes = .ok t ∧
        encodeOutput (i.outputFormat settings) bytes (some path) = lines := by
  simp only [perform_encode_to h, Job.outcome_bind_eq_ok_iff, outcome_encodeFile_eq_ok_iff,
    Job.outcome_writeBytes_eq_ok_iff]
  constructor
  · rintro ⟨bytes, _, ⟨hencodes, rfl⟩, _, _, hwrite, hlines⟩
    cases hlines
    exact ⟨bytes, hencodes, hwrite, rfl⟩
  · rintro ⟨bytes, hencodes, hwrite, rfl⟩
    exact ⟨bytes, s, ⟨hencodes, rfl⟩, (), t, hwrite, rfl⟩

/-! ### Effects -/

/-- All that a run does to files, and how it ends. -/
structure Effects {σ : Type} (fs : FileSystem σ) (s : σ) (i : Invocation) : Prop where
  /-- Another way of reporting leads to the same files and the same exit code. -/
  same : ∀ j : Invocation, j.config = i.config → j.command = i.command →
    (j.task.runOn fs s).2 = (i.task.runOn fs s).2 ∧
      exitCode (j.task.runOn fs s).1 = exitCode (i.task.runOn fs s).1
  quiet : i.quiet = true → standardOutput (i.task.runOn fs s).1 = ""
  failed : exitCode (i.task.runOn fs s).1 ≠ 0 → (i.task.runOn fs s).2 = s
  unwritten : i.command.output? = none → (i.task.runOn fs s).2 = s
  written : ∀ input path, i.command = .encode input (some path) →
    exitCode (i.task.runOn fs s).1 = 0 → ∃ settings bytes, fs.Configures s i.config settings ∧
      fs.Encodes s settings.builder input bytes ∧ fs.write s path bytes = .ok (i.task.runOn fs s).2

/-- A run that goes through exits with zero, and no other does. -/
private theorem exitCode_eq_zero_iff {result : Except ToolError String} :
    exitCode result = 0 ↔ ∃ text, result = .ok text := by
  cases result with
  | ok text => simp [exitCode]
  | error e =>
    have hcode : exitCode (.error e) ≠ 0 := by
      rw [exitCode.eq_def]
      split <;> simp_all
    simp [hcode]

private theorem exitCode_eq_of_map_eq {result result' : Except ToolError String}
    (h : result.map (fun _ => ()) = result'.map fun _ => ()) :
    exitCode result = exitCode result' := by
  cases result with
  | ok text =>
    cases result' with
    | ok text' => rfl
    | error e' => cases h
  | error e =>
    cases result' with
    | ok text' => cases h
    | error e' => rw [Except.error.inj h]

/-- The effects of a run on any file system. -/
private theorem effects_on {σ : Type} (fs : FileSystem σ) (s : σ) (i : Invocation) :
    i.Effects fs s := by
  cases houtcome : Job.outcome fs s i.job with | mk result t => ?_
  have hrun : i.task.runOn fs s = (result, t) := houtcome
  constructor
  · intro j hconfig hcommand
    obtain ⟨hstate, hresult⟩ := agrees_job hconfig hcommand fs s
    exact ⟨hstate, exitCode_eq_of_map_eq hresult⟩
  · intro hquiet
    rw [hrun]
    cases result with
    | error e => rfl
    | ok text =>
      obtain ⟨settings, lines, -, -, rfl⟩ := outcome_job_eq_ok_iff.mp houtcome
      exact if_pos hquiet
  · intro hfailed
    rw [hrun] at hfailed ⊢
    cases result with
    | ok text => exact absurd rfl hfailed
    | error e => exact i.atomic_job fs s t e houtcome
  · intro houtput
    exact reads_job houtput fs s
  · intro input path hcommand hzero
    rw [hrun] at hzero ⊢
    obtain ⟨text, rfl⟩ := exitCode_eq_zero_iff.mp hzero
    obtain ⟨settings, lines, hsettings, hlines, -⟩ := outcome_job_eq_ok_iff.mp houtcome
    obtain ⟨bytes, hencodes, hwrite, -⟩ := (outcome_perform_encode_to_iff hcommand).mp hlines
    exact ⟨settings, bytes, hsettings, hencodes, hwrite⟩

/-- **What a run does to files does not depend on how it reports, and a run that fails does
nothing.** This holds on any file system. In a directory, the file that `encode` is told to write
holds the encoded bytes afterwards, and the other files are as they were. -/
theorem effects (i : Invocation) :
    (∀ (σ : Type) (fs : FileSystem σ) (s : σ), i.Effects fs s) ∧
      ∀ d : Directory, i.task.run d = i.task.runOn Directory.fileSystem d ∧ ∀ input path,
        i.command = .encode input (some path) → exitCode (i.task.run d).1 = 0 →
          ∃ settings bytes file, Directory.fileSystem.Configures d i.config settings ∧
            Directory.fileSystem.Encodes d settings.builder input bytes ∧
            d.place path = .ok file ∧ (i.task.run d).2.read path = .ok bytes ∧
            ∀ other, other ≠ file → (i.task.run d).2.lookup other = d.lookup other := by
  refine ⟨fun σ fs s => i.effects_on fs s, fun d => ⟨i.task.run_eq_runOn d, ?_⟩⟩
  intro input path hcommand hzero
  rw [Task.run_eq_runOn] at hzero ⊢
  obtain ⟨settings, bytes, hsettings, hencodes, hwrite⟩ :=
    (i.effects_on Directory.fileSystem d).written input path hcommand hzero
  have hread := Directory.lawful d path bytes _ hwrite
  obtain ⟨file, hplace, -, -, hset⟩ := Directory.write_eq_ok_iff.mp hwrite
  refine ⟨settings, bytes, file, hsettings, hencodes, hplace, hread, fun other hother => ?_⟩
  rw [← hset]
  exact Directory.lookup_set_of_ne hother

/-- A description and another file. -/
def overwritten : Directory := [(["in.toml"], utf8 "id = 7"), (["notes.txt"], [1, 2])]

/-- Encodes a description into the file that it is in. -/
def overwriting (json quiet : Bool) : Invocation where
  config := none
  json := json
  quiet := quiet
  format := none
  command := .encode "in.toml" (some "in.toml")

/-- A description is overwritten by what it encodes to, and the file beside it stays. -/
theorem effects_overwriting :
    (∀ json quiet, ((overwriting json quiet).task.run overwritten).2
        = ((overwriting false false).task.run overwritten).2) ∧
      (∃ bytes, ((overwriting false false).task.run overwritten).2.read "in.toml" = .ok bytes) ∧
      ((overwriting false false).task.run overwritten).2.lookup ["notes.txt"] = some [1, 2] := by
  obtain ⟨heffects, hdirectory⟩ := (overwriting false false).effects
  obtain ⟨hrun, hwritten⟩ := hdirectory overwritten
  refine ⟨fun json quiet => ?_, ?_⟩
  · rw [Task.run_eq_runOn, hrun]
    exact ((heffects _ Directory.fileSystem overwritten).same (overwriting json quiet)
      rfl rfl).1
  · obtain ⟨settings, bytes, file, -, -, hplace, hread, hothers⟩ :=
      hwritten "in.toml" "in.toml" rfl (by decide +kernel)
    obtain rfl : ["in.toml"] = file := by
      have hfile : overwritten.place "in.toml" = .ok ["in.toml"] :=
        toOption_eq_some_iff.mp (by decide +kernel)
      exact Except.ok.inj (hfile.symm.trans hplace)
    exact ⟨⟨bytes, hread⟩, hothers ["notes.txt"] (by decide)⟩

end Invocation

end EnvelopeWire
