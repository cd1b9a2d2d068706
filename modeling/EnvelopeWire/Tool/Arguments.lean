import EnvelopeWire.Tool.Settings

/-!
# The command line

The tool has two commands, `encode` and `inspect`. Each has options of its own, and the general
options may stand in front of the command or behind it. An option stands at most once at either
place; behind the command it counts for more.

An argument is read by its shape, `Argument`. The arguments are gone through from left to right,
and the first that asks for help or breaks a rule decides how the reading stops. An option whose
value is an argument of its own is checked only when the reading goes on to the next option or
operand. A command is neither: it is read with the option in front of it still unchecked, so help
that is asked for behind the command is given whatever that option says.
-/

namespace EnvelopeWire

/-- What the tool is to do. -/
inductive Command
  | encode (input : String) (output : Option String)
  | inspect (file : String) (hexInput : Bool)
deriving DecidableEq, Repr

/-- A command line. -/
structure Invocation where
  config : Option String
  json : Bool
  quiet : Bool
  format : Option OutputFormat
  command : Command
deriving DecidableEq, Repr

/-- Why a command line leads to no command. -/
inductive Stop
  | help
  | version
  | usage
deriving DecidableEq, Repr

/-- The exit code: asking for help is no error. -/
def Stop.exitCode : Stop → Nat
  | help => 0
  | version => 0
  | usage => 2

/-! ### Options -/

/-- The options. -/
inductive OptionName
  | config | json | quiet | format | output | hexInput | help | version
deriving DecidableEq, Repr

/-- Where options stand: in front of the command, or behind one. -/
inductive Level
  | front | encode | inspect
deriving DecidableEq, Repr

/-- Whether an option may stand at a place. -/
def Level.allows : Level → OptionName → Bool
  | encode, .output => true
  | _, .output => false
  | inspect, .hexInput => true
  | _, .hexInput => false
  | front, .version => true
  | _, .version => false
  | _, _ => true

namespace OptionName

/-- Whether a value belongs to the option. -/
def takesValue : OptionName → Bool
  | config | format | output => true
  | _ => false

/-- Whether a text may be the value: a path is not empty, a format is one of the known ones. -/
def accepts : OptionName → String → Bool
  | config, value | output, value => value ≠ ""
  | format, value => (OutputFormat.names.lookup value).isSome
  | _, _ => true

/-- The option with a long name. -/
def ofLong? : String → Option OptionName
  | "config" => some config
  | "json" => some json
  | "quiet" => some quiet
  | "format" => some format
  | "output" => some output
  | "hex-input" => some hexInput
  | "help" => some help
  | "version" => some version
  | _ => none

/-- The option with a short name. -/
def ofShort? : Char → Option OptionName
  | 'q' => some quiet
  | 'o' => some output
  | 'h' => some help
  | 'V' => some version
  | _ => none

end OptionName

/-! ### Arguments -/

/-- An argument by its shape. -/
inductive Argument
  /-- No option. A lone dash is one of these. -/
  | plain (text : String)
  /-- Two dashes, behind which nothing is an option. -/
  | endOfOptions
  /-- Two dashes and a name, possibly with a value behind an equals sign. -/
  | long (name : String) (value : Option String)
  /-- A dash and short names. -/
  | short (names : List Char)
deriving DecidableEq, Repr

/-- The shape of an argument. -/
def Argument.ofString (s : String) : Argument :=
  match s.toList with
  | ['-', '-'] => .endOfOptions
  | '-' :: '-' :: body =>
    match body.span (· != '=') with
    | (name, _ :: value) => .long (String.ofList name) (some (String.ofList value))
    | (name, []) => .long (String.ofList name) none
  | '-' :: c :: names => .short (c :: names)
  | _ => .plain s

/-- What the arguments at one place gave so far. -/
structure Given where
  /-- The options with their values, which are empty for an option that takes none. -/
  options : List (OptionName × String) := []
  operand : Option String := none
  /-- The last option, when its value is an argument of its own: nothing until that argument is
  there, and then the value, which is still to be checked. -/
  waiting : Option (OptionName × Option String) := none

namespace Given

/-- Notes an option with its value, which may be neither given already nor wrong for the option. -/
def note (g : Given) (name : OptionName) (value : String) : Except Stop Given :=
  if (g.options.lookup name).isSome ∨ ¬ name.accepts value then .error .usage
  else .ok { g with options := (name, value) :: g.options }

/-- Notes the option that waits, which must have its value by now. -/
def settle (g : Given) : Except Stop Given :=
  match g.waiting with
  | none => .ok g
  | some (_, none) => .error .usage
  | some (name, some value) => note { g with waiting := none } name value

/-- Goes on to an option that is complete. Asking for help ends the reading at once. -/
def option (g : Given) (name : OptionName) (value : String) : Except Stop Given := do
  let g ← g.settle
  match name with
  | .help => throw .help
  | .version => throw .version
  | name => g.note name value

/-- Goes on to an option whose value is the next argument. -/
def await (g : Given) (name : OptionName) : Except Stop Given := do
  return { ← g.settle with waiting := some (name, none) }

/-- Goes on to the one operand that a command has. -/
def addOperand (g : Given) (text : String) : Except Stop Given := do
  let g ← g.settle
  if g.operand.isSome ∨ text = "" then
    throw .usage
  else
    return { g with operand := some text }

/-- The value of an option. -/
def value? (g : Given) (name : OptionName) : Option String := g.options.lookup name

/-- Whether an option is given. -/
def has (g : Given) (name : OptionName) : Bool := (g.value? name).isSome

/-- The operand, which must be there. -/
def requireOperand (g : Given) : Except Stop String :=
  match g.operand with
  | some text => .ok text
  | none => .error .usage

end Given

/-- An option that may stand at `level`. -/
def allowed (level : Level) (name : Option OptionName) : Except Stop OptionName :=
  match name with
  | some name => if level.allows name then .ok name else .error .usage
  | none => .error .usage

/-- Goes through the short options of one argument. An option that takes a value takes the rest of
the argument, or else the next argument. -/
def shortOptions (level : Level) (g : Given) : List Char → Except Stop Given
  | [] => .ok g
  | c :: rest => do
    let name ← allowed level (OptionName.ofShort? c)
    if name.takesValue then
      match rest with
      | [] => g.await name
      | '=' :: value => g.option name (String.ofList value)
      | value => g.option name (String.ofList value)
    else
      shortOptions level (← g.option name "") rest

/-- Goes on to a long option, possibly with an attached value. -/
def longOption (level : Level) (g : Given) (name : String) (value : Option String) :
    Except Stop Given := do
  let name ← allowed level (OptionName.ofLong? name)
  match name.takesValue, value with
  | true, some value => g.option name value
  | true, none => g.await name
  | false, none => g.option name ""
  | false, some _ => throw .usage

/-- Goes through the arguments at one place. In front of the command, the first operand is the
command: it ends the reading there, and it and what follows is the second result. An option may
still wait at the end. -/
def scan (level : Level) (g : Given) : List String → Except Stop (Given × List String)
  | [] => .ok (g, [])
  | arg :: rest =>
    match Argument.ofString arg, g.waiting with
    | .plain text, some (name, none) =>
      scan level { g with waiting := some (name, some text) } rest
    | .plain text, _ =>
      if level = .front then .ok (g, arg :: rest)
      else do scan level (← g.addOperand text) rest
    | .endOfOptions, _ => do
      -- In front of the command the next argument would be an operand, and there is none there.
      if level = .front then throw .usage
      return (← rest.foldlM Given.addOperand (← g.settle), [])
    | .long name value, _ => do scan level (← longOption level g name value) rest
    | .short names, _ => do scan level (← shortOptions level g names) rest

/-! ### Command lines -/

/-- The commands one can ask help about. -/
def helpTopics : List String := ["encode", "inspect", "help"]

/-- The invocation that the options at both places and the command make up. -/
def Invocation.ofGiven (front behind : Given) (command : Command) : Invocation where
  config := behind.value? .config <|> front.value? .config
  json := front.has .json || behind.has .json
  quiet := front.has .quiet || behind.has .quiet
  format := (behind.value? .format <|> front.value? .format).bind fun name =>
    OutputFormat.names.lookup name
  command := command

/-- What is given in front of a command and behind it. The command ends the reading in front at
once, so an option that waits there is checked last. -/
def settleAround (level : Level) (front : Given) (rest : List String) :
    Except Stop (Given × Given) := do
  let (behind, _) ← scan level {} rest
  let behind ← behind.settle
  return (← front.settle, behind)

/-- The invocation that the arguments of the tool stand for. -/
def Invocation.ofArguments (args : List String) : Except Stop Invocation := do
  let (front, rest) ← scan .front {} args
  match rest with
  | "encode" :: rest =>
    let (front, behind) ← settleAround .encode front rest
    let input ← behind.requireOperand
    return .ofGiven front behind (.encode input (behind.value? .output))
  | "inspect" :: rest =>
    let (front, behind) ← settleAround .inspect front rest
    let file ← behind.requireOperand
    return .ofGiven front behind (.inspect file (behind.has .hexInput))
  | ["help"] => throw .help
  | ["help", topic] => throw (if helpTopics.contains topic then .help else .usage)
  | _ => throw .usage

end EnvelopeWire
