import Symbolizer.Address
import Symbolizer.Dwarf.Fault
import Symbolizer.FileTree
import Symbolizer.Pe.Layout

/-!
What can go wrong below the entry points. None of these faults leaves a resolution: there they turn
into reports. The wording of each stands here.
-/

namespace Symbolizer

inductive NotPeReason where
  | kindUnknown (fault : Pe.KindFault)
  | unexpectedKind (kind : Pe.FileKind)
  | stated (text : String)
  deriving DecidableEq, Repr

def NotPeReason.message : NotPeReason → String
  | .kindUnknown fault => fault.message
  | .unexpectedKind kind => "unexpected " ++ kind.label ++ " file"
  | .stated text => text

inductive Fault where
  | file (fault : FileFault)
  | notPe (path : String) (reason : NotPeReason)
  | malformedObject (fault : Pe.LayoutFault)
  | noDebugInfo
  | dwarf (activity : String) (cause : Dwarf.Fault)
  | unreadableMemory (address : Address)
  | invalidArgument (text : String)
  deriving DecidableEq, Repr

def FileFault.message : FileFault → String
  | .notFound => "No such file or directory (os error 2)"
  | .notADirectory => "Not a directory (os error 20)"
  | .nameTooLong => "File name too long (os error 36)"
  | .zeroInName => "file name contained an unexpected NUL byte"
  | .isDirectory => "No such device (os error 19)"
  | .other text => text

def Fault.message : Fault → String
  | .file fault => "IO error: " ++ fault.message
  | .notPe path reason => path ++ " is not a PE image: " ++ reason.message
  | .malformedObject fault => "Malformed object file: " ++ fault.message
  | .noDebugInfo => "No DWARF debug information found"
  | .dwarf activity cause => "DWARF error while " ++ activity ++ ": " ++ cause.message
  | .unreadableMemory address => "Unable to read memory at " ++ address.display
  | .invalidArgument text => "Invalid argument: " ++ text

end Symbolizer
