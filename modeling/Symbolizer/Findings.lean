import Symbolizer.CommandLine
import Symbolizer.Modules
import Symbolizer.Options
import Symbolizer.Pe.Image
import Symbolizer.Satellite

/-!
A file system made of what was found under some paths, and the paths that an invocation asks about.
A resolution reads images and the satellites that their debug links lead to, so an image tells which
further paths matter.
-/

namespace Symbolizer

structure Finding where
  path : String
  contents : Except FileFault Bytes
  isFile : Bool

abbrev Findings := List Finding

namespace Findings

def find? (findings : Findings) (path : String) : Option Finding :=
  List.find? (fun finding => finding.path == path) findings

def toFileSystem (findings : Findings) : FileSystem where
  read path :=
    match findings.find? path with
    | some finding => finding.contents
    | none => .error .notFound
  isFile path := (findings.find? path).any (·.isFile)

end Findings

def CommandLine.Command.imagePaths (command : Command) (modules : Modules) : List String :=
  match command with
  | .file image _ _ => [image]
  | .pid _ addresses =>
    (addresses.filterMap fun value => (modules.owner? ⟨value⟩).map Module.path).eraseDups

def Finding.satellitePaths (finding : Finding) (options : Options) : List String :=
  match finding.contents with
  | .error _ => []
  | .ok data =>
    match Pe.Image.ofBytes finding.path data with
    | .error _ => []
    | .ok image =>
      match image.object.debugLink? with
      | some link => Satellite.candidatePaths finding.path link options.debugDirs
      | none => []

end Symbolizer
