import Symbolizer.Mangling.Scheme

/-!
The name of a function from the names its entry carries. A linkage name comes first and is shown in
its readable form; when it has none, the plain name is shown in its place and keeps the language of
the linkage name.
-/

namespace Symbolizer

structure Naming where
  demangle : Bool
  demanglers : Mangling.Demanglers

namespace Naming

def symbol (naming : Naming) (raw : String) : SymbolName :=
  let language := Mangling.classify raw.toList
  let demangled := if naming.demangle then naming.demanglers.apply language raw else none
  ⟨raw, demangled, language⟩

def isUndemangled (name : SymbolName) : Bool :=
  name.demangled.isNone && (name.language == .rust || name.language == .cpp)

structure Names where
  linkage : Option String
  mipsLinkage : Option String
  plain : Option String
  deriving DecidableEq, Repr

def choose (naming : Naming) (names : Names) : Option SymbolName :=
  match names.linkage.or names.mipsLinkage, names.plain with
  | some raw, some plain =>
    let name := naming.symbol raw
    if naming.demangle && isUndemangled name then some ⟨plain, none, name.language⟩ else some name
  | some raw, none => some (naming.symbol raw)
  | none, some plain => some (naming.symbol plain)
  | none, none => none

end Naming

end Symbolizer
