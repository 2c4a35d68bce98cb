import Symbolizer.Dwarf.Forest
import Symbolizer.Inline.Chain
import Symbolizer.Inline.FunctionName

/-!
The scopes around an address. The entries of a unit are walked from the leaves up; of subprograms
and inlined calls only those whose ranges hold the address are entered, all other entries are looked
through. The walk ends behind the first subprogram.
-/

namespace Symbolizer

inductive ScopeKind where
  | subprogram
  | inlined
  | transparent
  deriving DecidableEq, Repr

def ScopeKind.of (entry : Dwarf.Entry) : ScopeKind :=
  if entry.tag = Dwarf.Tag.subprogram then .subprogram
  else if entry.tag = Dwarf.Tag.inlinedSubroutine then .inlined
  else .transparent

structure ScopeSource extends NameSource where
  unit : Dwarf.CompilationUnit
  lines : LineTable

namespace ScopeSource

def enters (source : ScopeSource) (target : UInt64) (entry : Dwarf.Entry) : Except Fault Bool :=
  match ScopeKind.of entry with
  | .transparent => .ok true
  | _ => do
    let ranges ← mapDwarf "reading scope ranges" (source.unit.entryRanges source.sections entry)
    mapDwarf "reading scope range" (ranges.covers target.toNat)

def constant? (entry : Dwarf.Entry) (name : Nat) : Except Fault (Option Nat) := do
  return (← NameSource.attribute? entry name).bind Dwarf.Value.constant?

def callSite? (source : ScopeSource) (entry : Dwarf.Entry) :
    Except Fault (Option SourceLocation) := do
  match (← constant? entry Dwarf.Name.callFile).bind (source.lines.fileName? ∘ UInt64.ofNat) with
  | none => return none
  | some file =>
    let line := (← constant? entry Dwarf.Name.callLine).getD 0
    let column := (← constant? entry Dwarf.Name.callColumn).getD 0
    return some ⟨file, saturate line, saturate column⟩

def scopeOf (source : ScopeSource) (entry : Dwarf.Entry) (isSubprogram : Bool) :
    Except Fault Scope := do
  let function ← source.functionName? source.unit entry
  let callSite ← if isSubprogram then pure none else source.callSite? entry
  return ⟨function, callSite, isSubprogram⟩

/-- The scopes of a list of siblings, innermost first, and whether a subprogram ended the walk. -/
def scopesOf (source : ScopeSource) : Dwarf.Forest → Except Fault (List Scope × Bool)
  | .done => .ok ([], false)
  | .failed fault => .error fault
  | .node entry entered children next => do
    let (inner, ended) ← source.scopesOf children
    if ended then return (inner, true)
    let kind := ScopeKind.of entry
    if kind = .transparent || !entered then
      let (outer, ended) ← source.scopesOf next
      return (inner ++ outer, ended)
    let scope ← source.scopeOf entry (kind = .subprogram)
    if kind = .subprogram then return (inner ++ [scope], true)
    let (outer, ended) ← source.scopesOf next
    return (inner ++ scope :: outer, ended)

def resolve (source : ScopeSource) (target : UInt64) (leaf : Option SourceLocation) :
    Except Fault (List LogicalFrame) := do
  let forest ← mapDwarf "reading unit DIE" (source.unit.forest (source.enters target))
  return expandChain leaf (← source.scopesOf forest).1

end ScopeSource

end Symbolizer
