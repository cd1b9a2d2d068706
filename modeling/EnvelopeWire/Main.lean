import EnvelopeWire.Tool.Run

/-!
# The program

The tool on the real file system. Results go to standard output, and the error of a run that
fails to standard error.
-/

namespace EnvelopeWire

/-- A refusal of the system. -/
def SystemError.ofSystem : IO.Error → SystemError
  | .noFileOrDirectory _ _ _ => .notFound
  | .inappropriateType _ code text => ofCode code text
  | .noSuchThing _ code text => ofCode code text
  | .permissionDenied _ code text => ofCode code text
  | .invalidArgument _ code text => ofCode code text
  | .resourceExhausted _ code text => ofCode code text
  | .otherError code text => ofCode code text
  | e => .other (toString e)
where
  /-- A refusal by its number and text. -/
  ofCode (code : UInt32) (text : String) : SystemError :=
    if code = 2 then .notFound
    else if code = 20 then .notDirectory
    else if code = 21 then .isDirectory
    else if code = 36 then .nameTooLong
    else .other (text ++ " (os error " ++ toString code.toNat ++ ")")

/-- Performs a task on the real files. -/
def Task.perform {α : Type} : Task α → IO α
  | .done a => return a
  | .read path next => do
    let answer ← try
      let bytes ← IO.FS.readBinFile path
      pure (Except.ok bytes.data.toList)
    catch e => pure (Except.error (SystemError.ofSystem e))
    (next answer).perform
  | .write path bytes next => do
    let answer ← try
      IO.FS.writeBinFile path ⟨bytes.toArray⟩
      pure (Except.ok ())
    catch e => pure (Except.error (SystemError.ofSystem e))
    (next answer).perform

/-- How the tool is called. -/
def usageText : String :=
  "Encode and inspect envelope buffers\n\n"
  ++ "Usage: flatwire [OPTIONS] encode [-o|--output OUTPUT] INPUT\n"
  ++ "       flatwire [OPTIONS] inspect [--hex-input] FILE\n\n"
  ++ "Options:\n"
  ++ "      --config CONFIG\n"
  ++ "      --json\n"
  ++ "  -q, --quiet\n"
  ++ "      --format text|json|hex\n"
  ++ "  -h, --help\n"
  ++ "  -V, --version"

/-- What is shown when a command line leads to no command. -/
def Stop.print : Stop → IO Unit
  | help => IO.println usageText
  | version => IO.println "flatwire 0.1.0"
  | usage => IO.eprintln usageText

end EnvelopeWire

open EnvelopeWire in
/-- Runs the tool on its arguments. -/
def main (args : List String) : IO UInt32 := do
  match Invocation.ofArguments args with
  | .error stop =>
    stop.print
    return UInt32.ofNat stop.exitCode
  | .ok invocation =>
    let result ← invocation.task.perform
    IO.print (standardOutput result)
    if let .error e := result then
      IO.eprintln ("flatwire error: " ++ e.fullMessage)
    return UInt32.ofNat (exitCode result)
