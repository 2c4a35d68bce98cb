import Symbolizer.Dwarf.Attribute

/-!
Abbreviations: what an entry's code says about its tag, its children and the forms of its
attributes. A table ends at code zero or with its section, and no code may be declared twice.
-/

namespace Symbolizer.Dwarf

structure Abbreviation where
  code : Nat
  tag : Nat
  hasChildren : Bool
  attributes : List AttributeSpec
  deriving DecidableEq, Repr

namespace Read

def implicitConstForm : Nat := 0x21

def attributeSpec : Read (Option AttributeSpec) := do
  let name ← uleb16
  let form ← uleb16
  if name = 0 then
    if form = 0 then return none
    throw .expectedZero
  if form = 0 then throw .formZero
  let implicit ← if form = implicitConstForm then some <$> sleb else pure none
  return some ⟨name, form, implicit⟩

def abbreviation : Read (Option Abbreviation) := do
  let code ← uleb
  if code = 0 then return none
  let tag ← uleb16
  if tag = 0 then throw .tagZero
  let children ← byte
  if 1 < children then throw .badHasChildren
  return some ⟨code, tag, children = 1, ← listOf attributeSpec⟩

/-- The table so far and what follows; a repeated code is noticed where it is declared. -/
def abbreviationsFrom : Nat → List Abbreviation → Read (List Abbreviation)
  | 0, _ => throw .unexpectedEnd
  | fuel + 1, table => do
    if ← isEmpty then return table
    match ← abbreviation with
    | none => return table
    | some next =>
      if table.any (·.code == next.code) then throw .duplicateAbbreviation
      abbreviationsFrom fuel (table ++ [next])

def abbreviations : Read (List Abbreviation) := do
  abbreviationsFrom ((← get).rest.length + 1) []

end Read

end Symbolizer.Dwarf
