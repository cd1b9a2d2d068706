import EnvelopeWire.Bytes.LittleEndian

/-!
# Files

The tool reads and writes whole files. What it asks for is a `Task`: a tree of requests, each with
what to do for every answer. A task does not say who answers: a `Directory` does where it is to be
stated and proved what a task does to files, and the real file system does in the program.
-/

namespace EnvelopeWire

/-- Why the system refuses a request. -/
inductive SystemError
  | notFound
  | notDirectory
  | isDirectory
  | nameTooLong
  | other (text : String)
deriving DecidableEq, Repr

/-- The wording of a refusal, with its number. -/
def SystemError.message : SystemError → String
  | notFound => "No such file or directory (os error 2)"
  | notDirectory => "Not a directory (os error 20)"
  | isDirectory => "Is a directory (os error 21)"
  | nameTooLong => "File name too long (os error 36)"
  | other text => text

/-- A computation that asks for files. -/
inductive Task (α : Type)
  | done (result : α)
  | read (path : String) (next : Except SystemError Bytes → Task α)
  | write (path : String) (bytes : Bytes) (next : Except SystemError Unit → Task α)

namespace Task

variable {α β : Type}

/-- One task after the other. -/
def bind : Task α → (α → Task β) → Task β
  | done a, f => f a
  | read path next, f => .read path fun answer => (next answer).bind f
  | write path bytes next, f => .write path bytes fun answer => (next answer).bind f

instance : Monad Task where
  pure := done
  bind := bind

/-- Asks for the contents of a file. -/
def readFile (path : String) : Task (Except SystemError Bytes) := .read path .done

/-- Asks to write a file. -/
def writeFile (path : String) (bytes : Bytes) : Task (Except SystemError Unit) :=
  .write path bytes .done

end Task

end EnvelopeWire
