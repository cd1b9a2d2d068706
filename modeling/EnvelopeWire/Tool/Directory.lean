import EnvelopeWire.Bytes.Utf8
import EnvelopeWire.Ensure
import EnvelopeWire.Tool.Files

/-!
# Directories

A `Directory` is the files below the working directory, by the names on the way to them. A path is
walked name by name: each name but the last has to lead to a directory that is there, also where
the next name leads up again. What the last name may be depends on what it is for.

* `Directory.read`: the contents of a file. A slash behind it asks for a directory.
* `Directory.write`: replaces or adds a file, in a directory that is there.
* `Directory.lookup_set_self`, `Directory.lookup_set_of_ne`: a file that is set holds what it is
  set to, and the other files stay as they are.
* `Task.run`: performs a task on the files of a directory.

Of what lies outside the working directory, the directories above it and the root are there, and
nothing else.
-/

namespace EnvelopeWire

/-- The most bytes that a name may have. -/
def maxNameLength : Nat := 255

/-- The most bytes that a path may have. -/
def maxPathLength : Nat := 4095

/-- A path, by the names it goes through. -/
structure FilePath where
  /-- The path starts at the root, not at the working directory. -/
  fromRoot : Bool
  names : List String
  /-- The path ends in a slash. -/
  endsInSlash : Bool
deriving DecidableEq, Repr

/-- A path from its text. Slashes that follow one another count as one. -/
def FilePath.ofString (s : String) : FilePath where
  fromRoot := s.startsWith "/"
  names := ((s.toList.splitOn '/').map String.ofList).filter (· ≠ "")
  endsInSlash := s.endsWith "/"

/-- A place among the files: the names that lead there from the working directory. A place above
the working directory is as many times `..` as it is higher up, and the root is the name `/`. -/
abbrev Place := List String

namespace Place

/-- The place one level up. The root is its own parent. -/
def parent (place : Place) : Place :=
  match place.getLast? with
  | none => [".."]
  | some ".." => place ++ [".."]
  | some "/" => place
  | some _ => place.dropLast

/-- The place that a name leads to. -/
def child (place : Place) (name : String) : Except SystemError Place := do
  ensure ((utf8 name).length ≤ maxNameLength) SystemError.nameTooLong
  return place ++ [name]

end Place

/-- The place where a path starts. -/
def FilePath.start (p : FilePath) : Place := if p.fromRoot then ["/"] else []

/-- The last name of a path, unless it can only lead to a directory. -/
def FilePath.fileName? (p : FilePath) : Option String :=
  p.names.getLast?.filter fun name => name ≠ "." ∧ name ≠ ".."

/-- The files that are there, by their places. -/
abbrev Directory := List (Place × Bytes)

namespace Directory

/-- Whether a directory is at a place: one that is always there, or one on the way to a file. -/
def hasDirectory (d : Directory) (place : Place) : Bool :=
  place.all (fun name => name = ".." ∨ name = "/")
    || d.any fun file => place.isPrefixOf file.1 && place != file.1

/-- Goes from one directory to the next. -/
def enter (d : Directory) (place : Place) (name : String) : Except SystemError Place :=
  if name = "." then .ok place
  else if name = ".." then .ok place.parent
  else do
    let place ← place.child name
    if d.hasDirectory place then return place
    else if (d.lookup place).isSome then throw .notDirectory
    else throw .notFound

/-- The directory that a path looks its last name up in. -/
def walk (d : Directory) (p : FilePath) : Except SystemError Place :=
  p.names.dropLast.foldlM d.enter p.start

/-- The path that a text spells, unless it is empty or too long. -/
def path (text : String) : Except SystemError FilePath := do
  ensure ((utf8 text).length ≤ maxPathLength) SystemError.nameTooLong
  ensure (text ≠ "") SystemError.notFound
  return .ofString text

/-- The contents of a file. -/
def read (d : Directory) (text : String) : Except SystemError Bytes := do
  let p ← path text
  let place ← d.walk p
  match p.fileName? with
  | none => throw .isDirectory
  | some name =>
    let place ← place.child name
    ensure (!d.hasDirectory place) SystemError.isDirectory
    match d.lookup place with
    | none => throw .notFound
    | some bytes =>
      ensure (!p.endsInSlash) SystemError.notDirectory
      return bytes

/-- The directory with the contents of one file replaced, or the file added. -/
def set (place : Place) (bytes : Bytes) : Directory → Directory
  | [] => [(place, bytes)]
  | file :: files =>
    if file.1 = place then (place, bytes) :: files else file :: set place bytes files

/-- A file that was written holds what was written. -/
@[simp]
theorem lookup_set_self (d : Directory) (place : Place) (bytes : Bytes) :
    (d.set place bytes).lookup place = some bytes := by
  induction d with
  | nil => simp [set]
  | cons file files ih =>
    obtain ⟨name, contents⟩ := file
    by_cases h : name = place
    · simp [set, h]
    · have hne : (place == name) = false := beq_false_of_ne (Ne.symm h)
      simp only [set, if_neg h, List.lookup_cons, hne]
      exact ih

/-- Writing one file leaves the others alone. -/
theorem lookup_set_of_ne {d : Directory} {place other : Place} {bytes : Bytes}
    (h : other ≠ place) : (d.set place bytes).lookup other = d.lookup other := by
  have hother : (other == place) = false := beq_false_of_ne h
  induction d with
  | nil => simp only [set, List.lookup_cons, List.lookup_nil, hother]
  | cons file files ih =>
    obtain ⟨name, contents⟩ := file
    by_cases hname : name = place
    · subst hname
      simp only [set, if_true, List.lookup_cons, hother]
    · simp only [set, if_neg hname, List.lookup_cons]
      rw [ih]

/-- The directory after a file is written. -/
def write (d : Directory) (text : String) (bytes : Bytes) : Except SystemError Directory := do
  let p ← path text
  let place ← d.walk p
  match p.fileName? with
  | none => throw .isDirectory
  | some name =>
    -- Where a file may be added, a slash rules it out before its name is looked at.
    ensure (!p.endsInSlash) SystemError.isDirectory
    let place ← place.child name
    ensure (!d.hasDirectory place) SystemError.isDirectory
    return d.set place bytes

end Directory

/-- Performs a task on the files of a directory. -/
def Task.run {α : Type} (d : Directory) : Task α → α × Directory
  | .done a => (a, d)
  | .read path next => (next (d.read path)).run d
  | .write path bytes next =>
    match d.write path bytes with
    | .ok d => (next (.ok ())).run d
    | .error e => (next (.error e)).run d

end EnvelopeWire
