import Symbolizer.Mangling.Demangle
import Symbolizer.Program
import Symbolizer.Findings

/-!
The command. It collects what a run finds outside itself, leaves the run to the library, and prints
the outcome. A failure shows in the exit code only: nothing is put on the standard error, and nothing is
logged.
-/

open Symbolizer

namespace Symbolizer.Main

def environment : IO Program.Environment := do
  return ⟨← IO.getEnv Options.debugPathVariable, ← IO.getEnv Logging.styleVariable,
    ← IO.getEnv Logging.fileVariable⟩

def found (path : String) : IO Finding := do
  try
    let metadata ← (← IO.FS.realPath path).metadata
    let data ← IO.FS.readBinFile path
    return ⟨path, .ok data.toList, metadata.type == .file⟩
  catch fault =>
    return ⟨path, .error (.other fault.toString), false⟩

def mapOf (pid : UInt32) : IO (Option String) := do
  try return some (← IO.FS.readFile ("/proc/" ++ Text.decimal pid.toNat ++ "/maps"))
  catch _ => return none

/-- Images first, then what their debug links lead to. -/
def findingsOf (options : Options) (command : CommandLine.Command) (modules : Modules) :
    IO Findings := do
  let images ← (command.imagePaths modules).mapM found
  let satellites := images.flatMap fun image => image.satellitePaths options
  return images ++ (← satellites.mapM found)

def makesRoom (path : String) : IO Bool := do
  match Path.parent? path.toList with
  | none => return true
  | some [] => return true
  | some directory =>
    try
      IO.FS.createDirAll (String.ofList directory)
      return true
    catch _ => return false

def world (invocation : CommandLine.Invocation) : IO Program.World := do
  let environment ← environment
  let memoryMap ← match invocation.command with
    | .pid pid _ => mapOf pid
    | .file _ _ _ => pure none
  let options := Program.optionsOf environment invocation
  let modules := (memoryMap.map Modules.ofMaps).getD []
  let findings ← findingsOf options invocation.command modules
  let logFile := (Logging.Config.ofEnvironment environment.logStyle environment.logFile).file
  let canLog ← match logFile with
    | some path => makesRoom path
    | none => pure true
  return ⟨⟨findings.toFileSystem, .standard⟩, environment, fun _ => memoryMap, fun _ => canLog⟩

def emptyWorld : Program.World :=
  ⟨⟨Findings.toFileSystem [], .standard⟩, ⟨none, none, none⟩, fun _ => none, fun _ => true⟩

end Symbolizer.Main

def main (arguments : List String) : IO UInt32 := do
  let world ← match CommandLine.parse arguments with
    | .ok invocation => Main.world invocation
    | .error _ => pure Main.emptyWorld
  let outcome := Program.run world arguments
  IO.print outcome.standardOutput
  return outcome.exitCode
