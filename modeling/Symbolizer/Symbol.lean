import Symbolizer.Text.Numeral

/-!
What a frame names: a function, with its mangled and readable names and the language guessed from
the mangling, and a place in a source file. A line or column of zero means unknown.
-/

namespace Symbolizer

inductive Language where
  | rust
  | cpp
  | c
  | unknown
  deriving DecidableEq, Repr

def Language.label : Language → String
  | .rust => "rust"
  | .cpp => "c++"
  | .c => "c"
  | .unknown => "unknown"

structure SymbolName where
  /-- The name exactly as the debug information stores it. -/
  raw : String
  demangled : Option String
  language : Language
  deriving DecidableEq, Repr

def SymbolName.display (name : SymbolName) : String :=
  name.demangled.getD name.raw

structure SourceLocation where
  file : String
  line : UInt32
  column : UInt32
  deriving DecidableEq, Repr

def SourceLocation.display (location : SourceLocation) : String :=
  let place := location.file ++ ":" ++ Text.decimal location.line.toNat
  if location.column = 0 then place else place ++ ":" ++ Text.decimal location.column.toNat

end Symbolizer
