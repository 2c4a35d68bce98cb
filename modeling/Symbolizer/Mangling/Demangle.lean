import Symbolizer.Mangling.HashedPath
import Symbolizer.Mangling.Itanium.Printer
import Symbolizer.Mangling.V0.Item

/-!
The demanglers of the schemes that have a readable form: paths with a hash, paths that start with
`_R`, and Itanium names.
-/

namespace Symbolizer.Mangling

def demanglePath (raw : String) : Option String := do
  let name := withoutImportMark raw.toList
  let (path, suffix) ← ((HashedPath.demangle? name).map fun (path, suffix) =>
    (String.ofList path, suffix)).or (V0.demangle? name)
  if isSuffix suffix then return path ++ String.ofList suffix else none

def demangleItanium (raw : String) : Option String :=
  Itanium.demangle? raw.toList

namespace Demanglers

def standard : Demanglers :=
  ⟨demanglePath, demangleItanium⟩

end Demanglers

end Symbolizer.Mangling
