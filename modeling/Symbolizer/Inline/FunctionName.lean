import Symbolizer.Inline.Naming
import Symbolizer.LineTable
import Symbolizer.UnitIndex

/-!
The name of the function an entry describes. An entry without a name of its own borrows one through
its abstract origin, then through its specification, over sixteen links at most. A link is an offset
within the unit, or one within the whole section that may lead into another indexed unit.
-/

namespace Symbolizer

structure NameSource where
  sections : Dwarf.Sections
  index : UnitIndex
  naming : Naming

def mapDwarf (activity : String) : Except Dwarf.Fault α → Except Fault α
  | .ok value => .ok value
  | .error cause => .error (.dwarf activity cause)

theorem mapDwarf_eq_ok {α : Type} {activity : String} {result : Except Dwarf.Fault α} {value : α} :
    mapDwarf activity result = .ok value ↔ result = .ok value := by
  cases result <;> simp [mapDwarf]

namespace NameSource

def attribute? (entry : Dwarf.Entry) (name : Nat) : Except Fault (Option Dwarf.Value) :=
  mapDwarf "reading attribute" (entry.attribute? name)

def text? (source : NameSource) (unit : Dwarf.CompilationUnit) (entry : Dwarf.Entry) (name : Nat) :
    Except Fault (Option String) := do
  match ← attribute? entry name with
  | none => return none
  | some value =>
    let bytes ← mapDwarf "reading function name" (unit.stringOf source.sections value)
    return some (Text.Utf8.toText bytes)

/-- The other linkage name is looked at only when the first is missing. -/
def names (source : NameSource) (unit : Dwarf.CompilationUnit) (entry : Dwarf.Entry) :
    Except Fault Naming.Names := do
  let linkage ← source.text? unit entry Dwarf.Name.linkageName
  let mipsLinkage ← match linkage with
    | some _ => pure none
    | none => source.text? unit entry Dwarf.Name.mipsLinkageName
  let plain ← source.text? unit entry Dwarf.Name.name
  return ⟨linkage, mipsLinkage, plain⟩

/-- The entry at an offset of the section, with its unit: the unit at hand when it holds the offset,
else the last indexed unit that starts at or before it. -/
def foreign? (source : NameSource) (unit : Dwarf.CompilationUnit) (offset : Nat) :
    Except Fault (Option (Dwarf.CompilationUnit × Dwarf.Entry)) := do
  match unit.header.local? offset with
  | some here =>
    return some (unit, ← mapDwarf "following origin" (unit.entryAt here))
  | none =>
    match source.index.unitAtOrBefore? offset with
    | none => return none
    | some owner =>
      let header ← mapDwarf "reading referenced unit header"
        (Dwarf.UnitHeader.atOffset source.sections.info owner.offset)
      match header.local? offset with
      | none => return none
      | some here =>
        let other ← mapDwarf "reading referenced unit" (Dwarf.CompilationUnit.read source.sections header)
        return some (other, ← mapDwarf "following origin" (other.entryAt here))

def follow? (source : NameSource) (unit : Dwarf.CompilationUnit) (entry : Dwarf.Entry) (link : Nat) :
    Except Fault (Option (Dwarf.CompilationUnit × Dwarf.Entry)) := do
  match ← attribute? entry link with
  | some (.unitRef offset) =>
    return some (unit, ← mapDwarf "following origin" (unit.entryAt offset))
  | some (.infoRef offset) => source.foreign? unit offset
  | _ => return none

def maxLinks : Nat := 16

def linked? (source : NameSource)
    (nameOf : Dwarf.CompilationUnit → Dwarf.Entry → Except Fault (Option SymbolName))
    (unit : Dwarf.CompilationUnit) (entry : Dwarf.Entry) (link : Nat) :
    Except Fault (Option SymbolName) := do
  match ← source.follow? unit entry link with
  | none => return none
  | some (unit, entry) => nameOf unit entry

def ownOrBorrowed? (source : NameSource)
    (nameOf : Dwarf.CompilationUnit → Dwarf.Entry → Except Fault (Option SymbolName))
    (unit : Dwarf.CompilationUnit) (entry : Dwarf.Entry) : Except Fault (Option SymbolName) := do
  match source.naming.choose (← source.names unit entry) with
  | some name => return some name
  | none =>
    match ← source.linked? nameOf unit entry Dwarf.Name.abstractOrigin with
    | some name => return some name
    | none => source.linked? nameOf unit entry Dwarf.Name.specification

def nameWithin (source : NameSource) :
    Nat → Dwarf.CompilationUnit → Dwarf.Entry → Except Fault (Option SymbolName)
  | 0 => source.ownOrBorrowed? fun _ _ => .ok none
  | links + 1 => source.ownOrBorrowed? (source.nameWithin links)

def functionName? (source : NameSource) (unit : Dwarf.CompilationUnit) (entry : Dwarf.Entry) :
    Except Fault (Option SymbolName) :=
  source.nameWithin maxLinks unit entry

end NameSource

end Symbolizer
