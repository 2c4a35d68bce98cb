import Symbolizer.Text.Blank

/-!
The settings that every resolution shares, and the environment variable that adds directories to the
search for debug links: a list with colons between its parts, of which empty ones do not count.
-/

namespace Symbolizer

structure Options where
  /-- Upper bound on the frames taken from a stack. -/
  maxFrames : Nat
  /-- Directories searched for a debug link after those of the image. -/
  debugDirs : List String
  demangle : Bool
  followDebugLink : Bool
  deriving DecidableEq, Repr

namespace Options

def default : Options :=
  ⟨32, [], true, true⟩

def debugPathVariable : String := "STACKLINE_DEBUG_PATH"

def debugDirsOf (value : String) : List String :=
  ((Text.splitBy (· == ':') value.toList).filter (!·.isEmpty)).map String.ofList

def ofEnvironment (debugPath : Option String) : Options :=
  { default with debugDirs := (debugPath.map debugDirsOf).getD [] }

end Options

end Symbolizer
