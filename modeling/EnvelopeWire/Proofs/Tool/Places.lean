import EnvelopeWire.Proofs.Tool.Jobs

/-!
# The file that a path names

A path that is written or read names a place, and it names the same place after anything was
written. So what is written in a file is read back, and no other file changes.

* `Directory.write_eq_ok_iff`, `Directory.read_eq_ok_iff`: what writing and reading ask for.
* `Directory.place_set`: places stay where they are.
* `Directory.lawful`: what is written is read back.
-/

namespace EnvelopeWire.Directory

/-- The place of the file that a path names. -/
def place (d : Directory) (text : String) : Except SystemError Place := do
  let p ← path text
  let place ← d.walk p
  match p.fileName? with
  | none => throw .isDirectory
  | some name => place.child name

variable {d d' : Directory} {text : String} {bytes : Bytes} {file other : Place}

private theorem path_eq_ok_iff {p : FilePath} :
    path text = .ok p ↔
      (utf8 text).length ≤ maxPathLength ∧ text ≠ "" ∧ FilePath.ofString text = p := by
  simp [path, bind_eq_ok_iff, pure, Except.pure]

private theorem place_eq_ok_iff :
    d.place text = .ok file ↔ ∃ p parent name, path text = .ok p ∧ d.walk p = .ok parent ∧
      p.fileName? = some name ∧ parent.child name = .ok file := by
  simp only [place, bind_eq_ok_iff]
  refine exists_congr fun p => ?_
  cases p.fileName? with
  | none => simp [throw, throwThe, MonadExceptOf.throw]
  | some name => simp

/-- A file is written where no directory is. -/
theorem write_eq_ok_iff :
    d.write text bytes = .ok d' ↔ ∃ file, d.place text = .ok file ∧
      (FilePath.ofString text).endsInSlash = false ∧ d.hasDirectory file = false ∧
      d.set file bytes = d' := by
  simp only [place_eq_ok_iff, write, bind_eq_ok_iff]
  constructor
  · rintro ⟨p, hp, parent, hwalk, h⟩
    obtain ⟨-, -, rfl⟩ := path_eq_ok_iff.mp hp
    cases hname : (FilePath.ofString text).fileName? with
    | none =>
      rw [hname] at h
      cases h
    | some name =>
      rw [hname] at h
      obtain ⟨_, hslash, hrest⟩ := bind_eq_ok_iff.mp h
      obtain ⟨file, hchild, hrest⟩ := bind_eq_ok_iff.mp hrest
      obtain ⟨_, hfree, heq⟩ := bind_eq_ok_iff.mp hrest
      rw [ensure_eq_ok_iff, Bool.not_eq_true'] at hslash hfree
      exact ⟨file, ⟨_, parent, name, hp, hwalk, hname, hchild⟩, hslash, hfree, Except.ok.inj heq⟩
  · rintro ⟨file, ⟨p, parent, name, hp, hwalk, hname, hchild⟩, hslash, hfree, rfl⟩
    obtain ⟨-, -, rfl⟩ := path_eq_ok_iff.mp hp
    refine ⟨_, hp, parent, hwalk, ?_⟩
    simp [hname, hslash, hchild, hfree, ensure, bind, Except.bind, pure, Except.pure]

/-- A file is read where one is. -/
theorem read_eq_ok_iff :
    d.read text = .ok bytes ↔ ∃ file, d.place text = .ok file ∧
      (FilePath.ofString text).endsInSlash = false ∧ d.hasDirectory file = false ∧
      d.lookup file = some bytes := by
  simp only [place_eq_ok_iff, read, bind_eq_ok_iff]
  constructor
  · rintro ⟨p, hp, parent, hwalk, h⟩
    obtain ⟨-, -, rfl⟩ := path_eq_ok_iff.mp hp
    cases hname : (FilePath.ofString text).fileName? with
    | none =>
      rw [hname] at h
      cases h
    | some name =>
      rw [hname] at h
      obtain ⟨file, hchild, hrest⟩ := bind_eq_ok_iff.mp h
      obtain ⟨_, hfree, hrest⟩ := bind_eq_ok_iff.mp hrest
      cases hlookup : d.lookup file with
      | none =>
        rw [hlookup] at hrest
        cases hrest
      | some found =>
        rw [hlookup] at hrest
        obtain ⟨_, hslash, heq⟩ := bind_eq_ok_iff.mp hrest
        rw [ensure_eq_ok_iff, Bool.not_eq_true'] at hslash hfree
        cases heq
        exact ⟨file, ⟨_, parent, name, hp, hwalk, hname, hchild⟩, hslash, hfree, hlookup⟩
  · rintro ⟨file, ⟨p, parent, name, hp, hwalk, hname, hchild⟩, hslash, hfree, hlookup⟩
    obtain ⟨-, -, rfl⟩ := path_eq_ok_iff.mp hp
    refine ⟨_, hp, parent, hwalk, ?_⟩
    simp [hname, hslash, hchild, hfree, hlookup, ensure, bind, Except.bind, pure, Except.pure]

/-! ### What setting a file changes -/

/-- The directories after a file is set are those before, and those on the way to it. -/
private theorem hasDirectory_set (d : Directory) (file : Place) (bytes : Bytes) (other : Place) :
    (d.set file bytes).hasDirectory other
      = (d.hasDirectory other || (other.isPrefixOf file && other != file)) := by
  rw [hasDirectory, hasDirectory, Bool.or_assoc]
  congr 1
  induction d with
  | nil => simp [set]
  | cons head files ih =>
    by_cases h : head.1 = file
    · rw [show set file bytes (head :: files) = (file, bytes) :: files from if_pos h,
        List.any_cons, List.any_cons, h, Bool.or_right_comm, Bool.or_self]
    · simp only [set, if_neg h, List.any_cons, ih, Bool.or_assoc]

private theorem hasDirectory_set_self (d : Directory) (file : Place) (bytes : Bytes) :
    (d.set file bytes).hasDirectory file = d.hasDirectory file := by
  simp [hasDirectory_set]

private theorem enter_set {parent place : Place} {name : String}
    (h : d.enter parent name = .ok place) : (d.set file bytes).enter parent name = .ok place := by
  rw [enter] at h ⊢
  by_cases hdot : name = "."
  · rwa [if_pos hdot] at h ⊢
  by_cases hdots : name = ".."
  · rwa [if_neg hdot, if_pos hdots] at h ⊢
  rw [if_neg hdot, if_neg hdots] at h ⊢
  obtain ⟨next, hnext, hrest⟩ := bind_eq_ok_iff.mp h
  refine bind_eq_ok_iff.mpr ⟨next, hnext, ?_⟩
  split at hrest
  case isTrue hdirectory =>
    rw [if_pos (by rw [hasDirectory_set, hdirectory, Bool.true_or])]
    exact hrest
  case isFalse hno =>
    split at hrest <;> cases hrest

private theorem walk_set {p : FilePath} {place : Place} (h : d.walk p = .ok place) :
    (d.set file bytes).walk p = .ok place := by
  rw [walk] at h ⊢
  generalize p.start = start at h ⊢
  generalize p.names.dropLast = names at h ⊢
  induction names generalizing start with
  | nil => exact h
  | cons name names ih =>
    rw [List.foldlM_cons] at h ⊢
    obtain ⟨next, henter, hrest⟩ := bind_eq_ok_iff.mp h
    exact bind_eq_ok_iff.mpr ⟨next, enter_set henter, ih next hrest⟩

/-- A path names the same place after a file is set. -/
theorem place_set (h : d.place text = .ok other) : (d.set file bytes).place text = .ok other := by
  obtain ⟨p, parent, name, hp, hwalk, hname, hchild⟩ := place_eq_ok_iff.mp h
  exact place_eq_ok_iff.mpr ⟨p, parent, name, hp, walk_set hwalk, hname, hchild⟩

/-- **What is written in a file is read back.** -/
theorem lawful : fileSystem.Lawful := by
  intro d text bytes d' h
  obtain ⟨file, hplace, hslash, hfree, rfl⟩ := write_eq_ok_iff.mp h
  refine read_eq_ok_iff.mpr ⟨file, place_set hplace, hslash, ?_, lookup_set_self d file bytes⟩
  rw [hasDirectory_set_self, hfree]

end EnvelopeWire.Directory
