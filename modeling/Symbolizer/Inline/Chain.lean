import Symbolizer.Symbol

/-!
Frame chains. The scopes around an address, innermost first, become one frame each: a frame pairs
the name of its scope with the place that the scope inside it was called from. The first subprogram
ends the chain; without one the last place stands alone in a frame without a name.
-/

namespace Symbolizer

structure LogicalFrame where
  /-- Absent when no file name is known. -/
  location : Option SourceLocation
  function : Option SymbolName
  deriving DecidableEq, Repr

structure Scope where
  function : Option SymbolName
  /-- Where an inlined scope was called from; a subprogram has none. -/
  callSite : Option SourceLocation
  isSubprogram : Bool
  deriving DecidableEq, Repr

def expandChain (leaf : Option SourceLocation) : List Scope → List LogicalFrame
  | [] => [⟨leaf, none⟩]
  | scope :: outer =>
    let frame : LogicalFrame := ⟨leaf, scope.function⟩
    if scope.isSubprogram then [frame] else frame :: expandChain scope.callSite outer

end Symbolizer
