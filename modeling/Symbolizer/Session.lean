import Symbolizer.Inline.Scopes

/-!
A session over the debug information of one image: its units and their line tables, and the lookup
of one address. Units are tried in the order of the index; one that cannot be read, has no line
table, no governing row or only a row with line zero is passed over. A unit is read when it is first
tried, and what came of it is kept for the rest of the session.
-/

namespace Symbolizer

structure UnitLines where
  unit : Dwarf.CompilationUnit
  lines : Option LineTable

inductive UnitCell where
  | unread
  /-- Nothing when the unit cannot be read. -/
  | read (data : Option UnitLines)

structure Session extends NameSource where
  /-- One for each unit of the index. -/
  cells : List UnitCell

inductive Lookup where
  /-- Frames from the innermost out, never none. -/
  | found (frames : List LogicalFrame)
  | notFound
  deriving DecidableEq, Repr

def readUnit (sections : Dwarf.Sections) (offset : Nat) : Except Fault UnitLines := do
  let header ← mapDwarf "reading unit header" (Dwarf.UnitHeader.atOffset sections.info offset)
  let unit ← mapDwarf "reading unit" (Dwarf.CompilationUnit.read sections header)
  return ⟨unit, ← LineTable.read? sections unit⟩

namespace NameSource

def unitIn? (source : NameSource) (slot : Nat) : Option UnitLines := do
  let entry ← source.index.entries[slot]?
  (readUnit source.sections entry.offset).toOption

/-- The frames of an address under a governing row. When any step of the way to the scopes fails,
the row alone makes one frame. -/
def framesAt (source : NameSource) (unit : Dwarf.CompilationUnit) (lines : LineTable) (row : LineRow)
    (address : UInt64) : List LogicalFrame :=
  let leaf := (lines.fileName? row.file).map fun file => ⟨file, row.line, row.column⟩
  let scopes : ScopeSource := { source with unit, lines }
  match scopes.resolve address leaf with
  | .ok frames => frames
  | .error _ => [⟨leaf, none⟩]

/-- What a unit answers for an address: nothing without a governing row that has a line. -/
def framesIn? (source : NameSource) (address : UInt64) (data : Option UnitLines) :
    Option (List LogicalFrame) := do
  let data ← data
  let lines ← data.lines
  let row ← lines.findRow address
  guard (row.line ≠ 0)
  return source.framesAt data.unit lines row address

def slotsFor (source : NameSource) (address : UInt64) : List Nat :=
  (source.index.candidates address).map Prod.fst

/-- The lookup of an address with every unit read afresh. -/
def lookup (source : NameSource) (address : UInt64) : Lookup :=
  match (source.slotsFor address).findSome? fun slot =>
      source.framesIn? address (source.unitIn? slot) with
  | some frames => .found frames
  | none => .notFound

end NameSource

namespace Session

def ofSections (sections : Dwarf.Sections) (naming : Naming) : Session :=
  let index := UnitIndex.build sections
  { sections, index, naming, cells := index.entries.map fun _ => .unread }

def load (object : ObjectFile) (naming : Naming) : Except Fault Session :=
  match Dwarf.Sections.ofObject? object with
  | some sections => .ok (ofSections sections naming)
  | none => .error .noDebugInfo

def unitAt (session : Session) (slot : Nat) : Option UnitLines × Session :=
  match session.cells[slot]? with
  | none => (none, session)
  | some (.read data) => (data, session)
  | some .unread =>
    let data := session.unitIn? slot
    (data, { session with cells := session.cells.set slot (.read data) })

/-- Tries units in order; those behind the one that answers are left alone. -/
def search (address : UInt64) : Session → List Nat → Lookup × Session
  | session, [] => (.notFound, session)
  | session, slot :: slots =>
    let (data, session) := session.unitAt slot
    match session.framesIn? address data with
    | some frames => (.found frames, session)
    | none => search address session slots

def serve (session : Session) (address : UInt64) : Lookup × Session :=
  search address session (session.slotsFor address)

end Session

end Symbolizer
