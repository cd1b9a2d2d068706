import EnvelopeWire.Description.Toml
import EnvelopeWire.Report.Json
import EnvelopeWire.Report.Lines
import EnvelopeWire.Tool.Arguments
import EnvelopeWire.Tool.Files

/-!
# Runs of the tool

`Invocation.task` is what the tool does for a command line: it loads the settings, then encodes a
description or inspects a buffer. Nothing is printed before all files are read and written, and
the only file that is written is the one that `encode` is told to write, last of all. So a run
that fails prints nothing and changes nothing.
-/

namespace EnvelopeWire

/-- Why a text file cannot be read. -/
inductive ReadError
  | system (error : SystemError)
  | notUtf8
deriving DecidableEq, Repr

/-- The wording of an error. -/
def ReadError.message : ReadError → String
  | system error => error.message
  | notUtf8 => "stream did not contain valid UTF-8"

/-- Why a run fails. -/
inductive ToolError
  | configUnreadable (path : String) (error : ReadError)
  | configInvalid (path : String) (error : Toml.Error)
  | unreadable (path : String) (error : ReadError)
  | descriptionInvalid (path : String) (error : Toml.Error)
  | notEncodable (error : EncodeError)
  | unwritable (path : String) (error : SystemError)
  | hexInvalid (path : String) (error : Hex.Error)
  | notAnEnvelope (path : String) (error : EnvelopeError)
deriving DecidableEq, Repr

namespace ToolError

/-- The wording of an error, without that of a fault found in a TOML document. -/
def message : ToolError → String
  | configUnreadable path error => "failed to read config " ++ path ++ ": " ++ error.message
  | configInvalid path _ => "invalid config " ++ path
  | unreadable path error => "failed to read " ++ path ++ ": " ++ error.message
  | descriptionInvalid path _ =>
    "failed to parse " ++ path ++ ": invalid envelope description"
  | notEncodable error => error.message
  | unwritable path error => "failed to write " ++ path ++ ": " ++ error.message
  | hexInvalid path error => "invalid hex in " ++ path ++ ": " ++ error.message
  | notAnEnvelope path error => path ++ " is not an envelope: " ++ error.message

/-- The fault found in a TOML document. -/
def toml? : ToolError → Option Toml.Error
  | configInvalid _ error => some error
  | descriptionInvalid _ error => some error
  | _ => none

/-- The whole wording of an error. -/
def fullMessage (e : ToolError) : String :=
  match e.toml? with
  | some error => e.message ++ ": " ++ error.message
  | none => e.message

end ToolError

/-- A task that may fail. -/
abbrev Job := ExceptT ToolError Task

namespace Job

/-- A result that may be an error, with the error seen as one of the tool. -/
def ofExcept {ε α : Type} (wrap : ε → ToolError) : Except ε α → Job α
  | .ok a => pure a
  | .error e => throw (wrap e)

/-- The contents of a file. -/
def readBytes (wrap : ReadError → ToolError) (path : String) : Job Bytes := do
  ofExcept (fun e => wrap (.system e)) (← Task.readFile path)

/-- The contents of a text file. -/
def readText (wrap : ReadError → ToolError) (path : String) : Job String := do
  match utf8? (← readBytes wrap path) with
  | some text => return text
  | none => throw (wrap .notUtf8)

/-- Writes a file. -/
def writeBytes (path : String) (bytes : Bytes) : Job Unit := do
  ofExcept (.unwritable path) (← Task.writeFile path bytes)

end Job

namespace Settings

/-- The settings in a file, or the default settings when there is no file. -/
def load : Option String → Job Settings
  | none => return {}
  | some path => do
    let text ← Job.readText (.configUnreadable path) path
    Job.ofExcept (.configInvalid path) (Settings.ofToml text)

end Settings

/-! ### Encoding -/

/-- The buffer that the description in a file stands for. -/
def encodeFile (options : BuilderOptions) (path : String) : Job Bytes := do
  let text ← Job.readText (.unreadable path) path
  let description ← Job.ofExcept (.descriptionInvalid path) (Description.ofToml text)
  Job.ofExcept .notEncodable (description.encode options)

/-- A summary of an encoded buffer: its length, and either the file it is in or its digits. -/
def encodeSummary (bytes : Bytes) (output : Option String) : Json :=
  .object [("len", .ofNat bytes.length), ("path", .ofOption .string output),
    ("hex", if output.isSome then .null else .string (Hex.encode bytes))]

/-- What is shown of an encoded buffer. -/
def encodeOutput (format : OutputFormat) (bytes : Bytes) (output : Option String) : List String :=
  match format, output with
  | .json, output => [(encodeSummary bytes output).pretty]
  | _, some path => ["wrote " ++ toString bytes.length ++ " bytes to " ++ path]
  | _, none => [Hex.encode bytes]

/-! ### Inspecting -/

/-- Whether a byte is white space in ASCII. -/
def isAsciiSpace (b : UInt8) : Bool :=
  b = 0x20 ∨ b = 0x09 ∨ b = 0x0a ∨ b = 0x0c ∨ b = 0x0d

/-- The buffer in a file: its bytes, or the bytes that the digits in it spell, with white space
between them. -/
def readBuffer (path : String) (hexInput : Bool) : Job Bytes :=
  if hexInput then do
    let text ← Job.readText (.unreadable path) path
    Job.ofExcept (.hexInvalid path) (Hex.decode ((utf8 text).filter fun b => !isAsciiSpace b))
  else
    Job.readBytes (.unreadable path) path

/-- What is shown of an envelope. -/
def inspectOutput (format : OutputFormat) (bytes : Bytes) (report : Report) : List String :=
  match format with
  | .json => [report.toJson.pretty]
  | .hex => [Hex.encode bytes]
  | .text => report.lines

/-! ### Running -/

namespace Invocation

/-- The output format: JSON if asked for by its own option, else the one that is named, else the
one in the settings. -/
def outputFormat (i : Invocation) (settings : Settings) : OutputFormat :=
  if i.json then .json else i.format.getD settings.format

/-- Performs the command and gives the lines to show. -/
def perform (i : Invocation) (settings : Settings) : Job (List String) := do
  let format := i.outputFormat settings
  match i.command with
  | .encode input output =>
    let bytes ← encodeFile settings.builder input
    if let some path := output then
      Job.writeBytes path bytes
    return encodeOutput format bytes output
  | .inspect file hexInput =>
    let bytes ← readBuffer file hexInput
    let report ← Job.ofExcept (.notAnEnvelope file) (Report.ofBuffer bytes)
    return inspectOutput format bytes report

/-- The text that is printed for lines to show. It is empty if quiet is asked for. -/
def printed (i : Invocation) (lines : List String) : String :=
  if i.quiet then "" else String.join (lines.map (· ++ "\n"))

/-- The whole run. The result is the text that is printed. -/
def job (i : Invocation) : Job String := do
  let settings ← Settings.load i.config
  let lines ← i.perform settings
  return i.printed lines

/-- The whole run as a task. -/
def task (i : Invocation) : Task (Except ToolError String) := i.job.run

end Invocation

/-- What a run prints on standard output. -/
def standardOutput : Except ToolError String → String
  | .ok text => text
  | .error _ => ""

/-- The exit code of a run. A builder that fails ends the program there and then, with a code of its
own. -/
def exitCode : Except ToolError String → Nat
  | .ok _ => 0
  | .error (.notEncodable (.builder _)) => 101
  | .error _ => 1

end EnvelopeWire
