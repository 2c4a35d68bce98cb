import Symbolizer.DebugLink
import Symbolizer.FileTree

/-!
The search for the file a debug link names: the link itself when it is rooted, then its last
component in the directory of the image, in the subdirectory `.debug`, and in every extra directory.
The image itself is never an answer, as far as the spelling of the two paths tells.
-/

namespace Symbolizer.Satellite

/-- Of neighbours that are the same path only the first is kept. -/
def dropRepeats : List (List Char) → List (List Char)
  | [] => []
  | first :: rest =>
    match dropRepeats rest with
    | [] => [first]
    | kept :: more =>
      if Path.components first == Path.components kept then first :: more
      else first :: kept :: more

def candidates (image : List Char) (link : DebugLink) (extra : List (List Char)) :
    List (List Char) :=
  let target := link.fileName.toList
  let itself := if Path.isRooted target then [target] else []
  match Path.fileName? target with
  | none => itself
  | some name =>
    let directory := (Path.parent? image).getD []
    dropRepeats (itself ++ [Path.join directory name, Path.join (Path.join directory ".debug".toList) name]
      ++ extra.map (Path.join · name))

def candidatePaths (image : String) (link : DebugLink) (extra : List String) : List String :=
  (candidates image.toList link (extra.map String.toList)).map String.ofList

/-- The first candidate that is a regular file and not spelled like the image. -/
def locate? (files : FileSystem) (image : String) (link : DebugLink) (extra : List String) :
    Option String :=
  (candidatePaths image link extra).find? fun path => !Path.same path image && files.isFile path

end Symbolizer.Satellite
