import Symbolizer.AddressText
import Symbolizer.HelpText
import Symbolizer.Logging

/-!
The command line: options that hold everywhere, then `file` or `pid` with options and operands of
its own. Values wait until the next argument settles them, so an unknown argument is reported before
a bad value in front of it. Of an option given before and behind the command the inner one counts.
-/

namespace Symbolizer.CommandLine

inductive UsageError where
  | missingRequiredArgument
  | missingSubcommand
  | invalidSubcommand
  | unknownArgument
  | valueValidation
  | invalidValue
  | tooManyValues
  | argumentConflict
  | displayHelp (topic : HelpTopic)
  | displayVersion
  | displayHelpOnMissing
  deriving DecidableEq, Repr

def UsageError.label : UsageError → String
  | .missingRequiredArgument => "MissingRequiredArgument"
  | .missingSubcommand => "MissingSubcommand"
  | .invalidSubcommand => "InvalidSubcommand"
  | .unknownArgument => "UnknownArgument"
  | .valueValidation => "ValueValidation"
  | .invalidValue => "InvalidValue"
  | .tooManyValues => "TooManyValues"
  | .argumentConflict => "ArgumentConflict"
  | .displayHelp _ => "DisplayHelp"
  | .displayVersion => "DisplayVersion"
  | .displayHelpOnMissing => "DisplayHelpOnMissingArgumentOrSubcommand"

def UsageError.about (topic : HelpTopic) : UsageError → UsageError
  | .displayHelp _ => .displayHelp topic
  | fault => fault

inductive Command where
  | file (image : String) (base : UInt64) (addresses : List UInt64)
  | pid (pid : UInt32) (addresses : List UInt64)
  deriving DecidableEq, Repr

structure Invocation where
  command : Command
  debugDirs : List String
  noDemangle : Bool
  logLevel : Option Logging.Level
  logStyle : Option Logging.Style
  deriving DecidableEq, Repr

inductive Argument where
  | debugDir
  | noDemangle
  | logLevel
  | logStyle
  | base
  | image
  | pid
  | addresses
  | help
  | version
  deriving DecidableEq, Repr

namespace Argument

def takesValue : Argument → Bool
  | .noDemangle | .help | .version => false
  | _ => true

def isRepeatable : Argument → Bool
  | .debugDir | .addresses => true
  | _ => false

end Argument

/-- A level: its options by long and by short name, and its operands in order. -/
structure Level where
  longs : List (String × Argument)
  shorts : List (Char × Argument)
  operands : List Argument
  /-- Whether commands can follow. -/
  hasCommands : Bool

def globalLongs : List (String × Argument) :=
  [("debug-dir", .debugDir), ("no-demangle", .noDemangle), ("log-level", .logLevel),
    ("log-format", .logStyle), ("help", .help)]

def topLevel : Level :=
  ⟨("version", .version) :: globalLongs, [('h', .help), ('V', .version)], [], true⟩

def fileLevel : Level :=
  ⟨("base", .base) :: globalLongs, [('h', .help), ('b', .base)], [.image, .addresses], false⟩

def pidLevel : Level :=
  ⟨globalLongs, [('h', .help)], [.pid, .addresses], false⟩

/-- What a level has been given, with every value already read. -/
structure Given where
  debugDirs : List String
  noDemangle : Bool
  logLevel : Option Logging.Level
  logStyle : Option Logging.Style
  base : Option UInt64
  image : Option String
  pid : Option UInt32
  addresses : List UInt64
  deriving DecidableEq, Repr

namespace Given

def none : Given :=
  ⟨[], false, .none, .none, .none, .none, .none, []⟩

def has (given : Given) : Argument → Bool
  | .debugDir => !given.debugDirs.isEmpty
  | .noDemangle => given.noDemangle
  | .logLevel => given.logLevel.isSome
  | .logStyle => given.logStyle.isSome
  | .base => given.base.isSome
  | .image => given.image.isSome
  | .pid => given.pid.isSome
  | .addresses => !given.addresses.isEmpty
  | .help => false
  | .version => false

def isNothing (given : Given) : Bool :=
  given == none

def valid (value : Except ε α) : Except UsageError α :=
  match value with
  | .ok a => .ok a
  | .error _ => .error .valueValidation

def pathValue (value : String) : Except UsageError String :=
  if value.isEmpty then .error .invalidValue else .ok value

def pidValue (value : String) : Except UsageError UInt32 := do
  return UInt32.ofNat (← valid (Text.readUnsigned 10 32 value.toList))

def add (given : Given) (argument : Argument) (value : String) : Except UsageError Given :=
  match argument with
  | .debugDir => do return { given with debugDirs := given.debugDirs ++ [← pathValue value] }
  | .noDemangle => .ok { given with noDemangle := true }
  | .logLevel => do return { given with logLevel := some (← valid (Logging.Level.parse value)) }
  | .logStyle => do return { given with logStyle := some (← valid (Logging.Style.parse value)) }
  | .base => do return { given with base := some (← valid (AddressText.parse value)) }
  | .image => do return { given with image := some (← pathValue value) }
  | .pid => do return { given with pid := some (← pidValue value) }
  | .addresses => do
    return { given with addresses := given.addresses ++ [← valid (AddressText.parse value)] }
  | .help => .error (.displayHelp .program)
  | .version => .error .displayVersion

/-- Takes one occurrence of an argument with all its values. -/
def settle (given : Given) (argument : Argument) (values : List String) :
    Except UsageError Given :=
  if argument.takesValue then
    if values.isEmpty then .error .invalidValue
    else if given.has argument && !argument.isRepeatable then .error .argumentConflict
    else values.foldlM (fun given value => given.add argument value) given
  else if given.has argument then .error .argumentConflict
  else given.add argument ""

/-- The inner level wins where both give something. -/
def inner (outer given : Given) : Given :=
  { given with
    debugDirs := if given.debugDirs.isEmpty then outer.debugDirs else given.debugDirs
    noDemangle := given.noDemangle || outer.noDemangle
    logLevel := given.logLevel.or outer.logLevel
    logStyle := given.logStyle.or outer.logStyle }

end Given

structure State where
  given : Given
  /-- An argument whose values are not settled yet. -/
  pending : Option (Argument × List String)
  /-- Whether the next argument is the value of the pending option. -/
  awaitsValue : Bool
  /-- Set behind a lone double dash, where everything is an operand. -/
  operandsOnly : Bool
  deriving DecidableEq, Repr

namespace State

def start : State :=
  ⟨Given.none, none, false, false⟩

def flush (state : State) : Except UsageError State :=
  match state.pending with
  | none => .ok state
  | some (argument, values) => do
    return { state with given := ← state.given.settle argument values, pending := none }

def settled (state : State) (argument : Argument) (values : List String) :
    Except UsageError State := do
  let state ← state.flush
  return { state with given := ← state.given.settle argument values, awaitsValue := false }

def await (state : State) (argument : Argument) : Except UsageError State := do
  return { (← state.flush) with pending := some (argument, []), awaitsValue := true }

def option (state : State) (argument : Argument) (attached : Option String) :
    Except UsageError State :=
  match attached with
  | some value =>
    if argument.takesValue then state.settled argument [value] else .error .tooManyValues
  | none => if argument.takesValue then state.await argument else state.settled argument []

def push (state : State) (argument : Argument) (value : String) : Except UsageError State :=
  match state.pending with
  | some (waiting, values) =>
    if waiting = argument then
      .ok { state with pending := some (waiting, values ++ [value]), awaitsValue := false }
    else do
      return { (← state.flush) with pending := some (argument, [value]), awaitsValue := false }
  | none => .ok { state with pending := some (argument, [value]), awaitsValue := false }

/-- The operand that the next word belongs to: the first not given yet, the last for all further
words. -/
def nextOperand? (state : State) (operands : List Argument) : Option Argument :=
  let isTaken (argument : Argument) : Bool :=
    state.given.has argument || state.pending.any (·.1 == argument)
  (operands.find? fun argument => !isTaken argument || argument.isRepeatable)

def long (level : Level) (state : State) (body : List Char) : Except UsageError State :=
  let name := body.takeWhile (· != '=')
  let attached :=
    match body.dropWhile (· != '=') with
    | [] => none
    | _ :: value => some (String.ofList value)
  match level.longs.lookup (String.ofList name) with
  | some argument => state.option argument attached
  | none => .error .unknownArgument

/-- A cluster of short options; the rest behind one that takes a value is its value. -/
def shorts (level : Level) : State → List Char → Except UsageError State
  | state, [] => .ok state
  | state, letter :: rest =>
    match level.shorts.lookup letter with
    | none => .error .unknownArgument
    | some argument =>
      if argument.takesValue then
        match rest with
        | [] => state.option argument none
        | '=' :: value => state.option argument (some (String.ofList value))
        | value => state.option argument (some (String.ofList value))
      else do shorts level (← state.settled argument []) rest

def word (level : Level) (state : State) (text : String) : Except UsageError State :=
  match state.awaitsValue && !state.operandsOnly, state.pending with
  | true, some (argument, _) => state.push argument text
  | _, _ =>
    match state.nextOperand? level.operands with
    | some argument => state.push argument text
    | none => .error .unknownArgument

def step (level : Level) (state : State) (text : String) : Except UsageError State :=
  if state.operandsOnly then state.word level text
  else
    match text.toList with
    | ['-', '-'] => .ok { state with operandsOnly := true }
    | '-' :: '-' :: body => state.long level body
    | ['-'] => state.word level text
    | '-' :: letters => state.shorts level letters
    | _ => state.word level text

end State

def readLevel (level : Level) (arguments : List String) : Except UsageError Given := do
  let state ← arguments.foldlM (fun state text => state.step level text) State.start
  return (← state.flush).given

def required (value : Option α) : Except UsageError α :=
  match value with
  | some a => .ok a
  | none => .error .missingRequiredArgument

def fileCommand (given : Given) : Except UsageError Command := do
  let image ← required given.image
  if given.addresses.isEmpty then throw .missingRequiredArgument
  return .file image (given.base.getD 0) given.addresses

def pidCommand (given : Given) : Except UsageError Command := do
  let pid ← required given.pid
  if given.addresses.isEmpty then throw .missingRequiredArgument
  return .pid pid given.addresses

/-- The words behind `help` must lead to a command. -/
def helpCommand : List String → UsageError
  | [] => .displayHelp .program
  | ["file"] => .displayHelp .file
  | ["pid"] => .displayHelp .pid
  | ["help"] => .displayHelp .help
  | [_] => .invalidSubcommand
  | _ :: _ :: _ => .invalidSubcommand

def command? (word : String) (rest : List String) : Option (Except UsageError (Command × Given)) :=
  match word with
  | "file" => some do
    let given ← (readLevel fileLevel rest).mapError (UsageError.about .file)
    return (← fileCommand given, given)
  | "pid" => some do
    let given ← (readLevel pidLevel rest).mapError (UsageError.about .pid)
    return (← pidCommand given, given)
  | "help" => some (.error (helpCommand rest))
  | _ => none

def isCommand (word : String) : Bool :=
  word == "file" || word == "pid" || word == "help"

def invocation (outer : Given) (command : Command) (given : Given) : Invocation :=
  let joined := outer.inner given
  ⟨command, joined.debugDirs, joined.noDemangle, joined.logLevel, joined.logStyle⟩

/-- The top level. Its own last value is settled only after the command has been read. -/
def readTop : State → List String → Except UsageError Invocation
  | state, [] => do
    let given := (← state.flush).given
    if given.isNothing then throw .displayHelpOnMissing
    throw .missingSubcommand
  | state, text :: rest =>
    if state.operandsOnly then .error (if isCommand text then .unknownArgument else .invalidSubcommand)
    else
      match if state.awaitsValue then none else command? text rest with
      | some (.error fault) => .error fault
      | some (.ok (command, given)) => do
        return invocation (← state.flush).given command given
      | none =>
        match state.step topLevel text with
        | .ok state => readTop state rest
        | .error .unknownArgument =>
          .error (if text.toList.head? = some '-' ∧ text ≠ "-" then .unknownArgument
            else .invalidSubcommand)
        | .error fault => .error fault

def parse (arguments : List String) : Except UsageError Invocation :=
  readTop State.start arguments

end Symbolizer.CommandLine
