import Symbolizer.DebugLink

/-!
An object file as its sections. Index zero is the reserved null section, real sections follow in
order. Looking a section up by name takes the first of that name. The debug link is taken over as
the sections come, so that a later link section replaces what an earlier one said.
-/

namespace Symbolizer

structure Section where
  name : String
  /-- Absent for a section that occupies no file data. -/
  data : Option Bytes
  deriving DecidableEq, Repr

structure ObjectFile where
  pointerSize : Nat
  declaredBase : Option UInt64
  sections : List Section
  deriving DecidableEq, Repr

namespace ObjectFile

/-- The null section counts. -/
def sectionCount (object : ObjectFile) : Nat :=
  object.sections.length + 1

def sectionName? (object : ObjectFile) : Nat → Option String
  | 0 => some ""
  | index + 1 => (object.sections[index]?).map Section.name

def sectionData? (object : ObjectFile) : Nat → Option Bytes
  | 0 => none
  | index + 1 => (object.sections[index]?).bind Section.data

def sectionNamed? (object : ObjectFile) (name : String) : Option Bytes :=
  (object.sections.find? (·.name == name)).bind Section.data

/-- What is held of the debug link behind one more section. -/
def linkBehind (held : Option DebugLink) (added : Section) : Option DebugLink :=
  if added.name == DebugLink.sectionName then added.data.bind DebugLink.parse? else held

def debugLink? (object : ObjectFile) : Option DebugLink :=
  object.sections.foldl linkBehind none

/-- A section held in memory goes behind the others and always has data. -/
def withSection (object : ObjectFile) (name : String) (data : Bytes) : ObjectFile :=
  { object with sections := object.sections ++ [⟨name, some data⟩] }

def ofSections (pointerSize : Nat) (declaredBase : Option UInt64)
    (sections : List (String × Bytes)) : ObjectFile :=
  sections.foldl (fun object (name, data) => object.withSection name data) ⟨pointerSize, declaredBase, []⟩

end ObjectFile

end Symbolizer
