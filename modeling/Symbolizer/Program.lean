import Symbolizer.CommandLine
import Symbolizer.Stack
import Symbolizer.StackPrinter

/-!
A whole run of the program: from the arguments, the environment and the files to the text on the
standard output and the exit code. Usage errors exit with 2, other failures with 1, and so does a run
whose output takes less than all of its text. What a failure says on the standard error is not told.
-/

namespace Symbolizer.Program

structure Environment where
  debugPath : Option String
  logStyle : Option String
  logFile : Option String
  deriving DecidableEq, Repr

structure World where
  surroundings : Surroundings
  environment : Environment
  /-- The memory map of a process, if it can be read. -/
  memoryMap : UInt32 → Option String
  /-- Whether a log file can be opened under a path. -/
  canLogTo : String → Bool

structure Outcome (ω : Type) where
  exitCode : UInt32
  standardOutput : ω
  deriving DecidableEq, Repr

def optionsOf (environment : Environment) (invocation : CommandLine.Invocation) : Options :=
  let options := Options.ofEnvironment environment.debugPath
  { options with
    demangle := !invocation.noDemangle
    debugDirs := options.debugDirs ++ invocation.debugDirs }

def addressesOf (values : List UInt64) : List Address :=
  values.map Address.mk

/-- The frames of an invocation offered to a sink; nothing when the process cannot be read. -/
def resolve? (world : World) (invocation : CommandLine.Invocation) (sink : Sink σ) (state : σ) :
    Option (Progress σ) :=
  let options := optionsOf world.environment invocation
  match invocation.command with
  | .file image base addresses =>
    some (resolveFile world.surroundings options image ⟨base⟩ true sink state
      (addressesOf addresses))
  | .pid pid addresses =>
    (world.memoryMap pid).map fun text =>
      resolveProcess world.surroundings options (Modules.ofMaps text).toMap sink state
        (addressesOf addresses)

def outcomeOf (output : Output ω) (printed : Printer ω) : Outcome ω :=
  match printed.finish output with
  | none => ⟨0, printed.out⟩
  | some _ => ⟨1, printed.out⟩

def logsWell (world : World) : Bool :=
  (Logging.Config.ofEnvironment world.environment.logStyle world.environment.logFile).file.all
    world.canLogTo

def versionText : String := "stackline 0.0.0\n"

def usageOutcome : CommandLine.UsageError → Outcome String
  | .displayHelp topic => ⟨0, HelpText.render topic⟩
  | .displayVersion => ⟨0, versionText⟩
  | _ => ⟨2, ""⟩

/-- An invocation with its lines on an output. Nothing is written when there is no log file to write or no
process to read. -/
def printTo (output : Output ω) (out : ω) (world : World) (invocation : CommandLine.Invocation) :
    Outcome ω :=
  if !logsWell world then ⟨1, out⟩
  else
    match resolve? world invocation (Sink.printer output) (Printer.start out) with
    | some progress => outcomeOf output progress.state
    | none => ⟨1, out⟩

def run (world : World) (arguments : List String) : Outcome String :=
  match CommandLine.parse arguments with
  | .error fault => usageOutcome fault
  | .ok invocation => printTo Output.kept "" world invocation

end Symbolizer.Program
