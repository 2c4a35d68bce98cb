import Symbolizer.Dwarf.Entry
import Symbolizer.Dwarf.LineProgram

/-!
A unit made ready for questions: its abbreviations, the bases of its tables, its lowest address, its
compilation directory and its line program header, all taken from the root entry. A fault in any of
them makes the whole unit unreadable, except that a directory that is no string counts as none.
-/

namespace Symbolizer.Dwarf

structure CompilationUnit where
  header : UnitHeader
  abbreviations : List Abbreviation
  bases : Bases
  lowPc : Nat
  compDir : Option Bytes
  lineHeader : Option LineHeader
  deriving Repr

namespace CompilationUnit

def encoding (unit : CompilationUnit) : Encoding :=
  unit.header.encoding

/-- The first entry behind any leading nulls. -/
def firstEntry (encoding : Encoding) (abbreviations : List Abbreviation) :
    Nat → Cursor → Except Fault Entry
  | 0, _ => .error .missingUnitEntry
  | fuel + 1, cursor => do
    if cursor.rest.isEmpty then throw .missingUnitEntry
    match ← Entry.read encoding abbreviations cursor with
    | .null next => firstEntry encoding abbreviations fuel next
    | .entry entry => return entry

def rootEntry (header : UnitHeader) (abbreviations : List Abbreviation) : Except Fault Entry :=
  firstEntry header.encoding abbreviations (header.entries.length + 1) header.start

def last? (attributes : List Attribute) (names : List Nat) : Option Value :=
  (attributes.reverse.find? fun attr => attr.name ∈ names).map Attribute.value

def lastOffset? (attributes : List Attribute) (names : List Nat) : Option Nat :=
  attributes.reverse.findSome? fun attr =>
    if attr.name ∈ names then
      match attr.value with
      | .sectionOffset offset => some offset
      | _ => none
    else none

def read (sections : Sections) (header : UnitHeader) : Except Fault CompilationUnit := do
  let abbreviations ← Read.abbreviations.runAt sections.abbreviations header.abbrevOffset
  let root ← rootEntry header abbreviations
  let _ ← root.stop
  let attributes := root.attributes
  let bases : Bases := {
    strOffsets := (lastOffset? attributes [Name.strOffsetsBase]).getD 0
    addr := (lastOffset? attributes [Name.addrBase, Name.gnuAddrBase]).getD 0
    rnglists := (lastOffset? attributes [Name.rnglistsBase, Name.gnuRangesBase]).getD 0
  }
  let compDir := (last? attributes [Name.compDir]).bind fun value =>
    (sections.stringOf bases header.encoding.format value).toOption
  let lineHeader ← (lastOffset? attributes [Name.stmtList]).mapM fun offset =>
    (LineHeader.read header.encoding.addressSize).runAt sections.line offset
  let lowPc ← match last? attributes [Name.lowPc] with
    | some value => sections.addressOf? bases header.encoding.addressSize value
    | none => pure none
  return { header, abbreviations, bases, lowPc := lowPc.getD 0, compDir, lineHeader }

def readAt (sections : Sections) (offset : Nat) : Except Fault CompilationUnit := do
  read sections (← UnitHeader.atOffset sections.info offset)

def entryAt (unit : CompilationUnit) (offset : Nat) : Except Fault Entry :=
  match unit.header.cursorAt? offset with
  | none => .error .offsetOutOfBounds
  | some cursor => do
    match ← Entry.read unit.encoding unit.abbreviations cursor with
    | .null _ => throw .noEntryAtOffset
    | .entry entry => return entry

def stringOf (unit : CompilationUnit) (sections : Sections) (value : Value) : Except Fault Bytes :=
  sections.stringOf unit.bases unit.encoding.format value

def addressOf? (unit : CompilationUnit) (sections : Sections) (value : Value) : Except Fault (Option Nat) :=
  sections.addressOf? unit.bases unit.encoding.addressSize value

end CompilationUnit

end Symbolizer.Dwarf
