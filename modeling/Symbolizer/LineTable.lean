import Symbolizer.Dwarf.LineProgram
import Symbolizer.Dwarf.CompilationUnit
import Symbolizer.Fault
import Symbolizer.RecordedPath

/-!
The line table of a unit: rows in one flat list, ordered by the first address of the sequences they
come from, and the paths of the files they name. A row governs an address when the row behind it
lies above the address and it does not itself end a sequence.
-/

namespace Symbolizer

structure LineRow where
  address : UInt64
  file : UInt64
  line : UInt32
  column : UInt32
  /-- Marks the first address behind a sequence. -/
  endSequence : Bool
  deriving DecidableEq, Repr

structure LineTable where
  rows : List LineRow
  files : List String
  /-- The index of the first file. -/
  firstFile : UInt64
  deriving DecidableEq, Repr

/-- The largest 32-bit number stands for everything above it. -/
def saturate (n : Nat) : UInt32 :=
  UInt32.ofNat (min n (UInt32.size - 1))

namespace LineTable

/-- Where a scan for a target reads: in front of the first row that lies above the target, unless the row
there ends a sequence. Of the rows that it has passed the scan keeps only whether the last one ends a
sequence, and their number. An index is an integer, so that one in front of the first row can be told. -/
def scanFrom (target : UInt64) : Bool → Nat → List LineRow → Option Int
  | _, _, [] => none
  | pastEnd, position, row :: rest =>
    if row.address ≤ target then scanFrom target row.endSequence (position + 1) rest
    else if pastEnd then none
    else some ((position : Int) - 1)

/-- The place in front of all rows counts as one behind a sequence. -/
def governingIndex? (table : LineTable) (target : UInt64) : Option Int :=
  scanFrom target true 0 table.rows

def rowAt? (table : LineTable) (index : Int) : Option LineRow :=
  if index < 0 then none else table.rows[index.toNat]?

def findRow (table : LineTable) (target : UInt64) : Option LineRow :=
  (table.governingIndex? target).bind table.rowAt?

def fileName? (table : LineTable) (index : UInt64) : Option String :=
  if index < table.firstFile then none
  else table.files[(index - table.firstFile).toNat]?

def rowOf (registers : Dwarf.LineRegisters) : LineRow :=
  { address := UInt64.ofNat registers.address
    file := UInt64.ofNat registers.file
    line := saturate registers.line.toNat
    column := saturate registers.column
    endSequence := registers.endSequence }

/-- Rows cut behind every row that ends a sequence; rows left over make a last sequence. -/
def sequences : List LineRow → List (List LineRow)
  | [] => []
  | row :: rest =>
    if row.endSequence then [row] :: sequences rest
    else
      match sequences rest with
      | [] => [[row]]
      | sequence :: more => (row :: sequence) :: more

def firstAddress (sequence : List LineRow) : UInt64 :=
  (sequence.head?.map LineRow.address).getD 0

/-- Sequences in the order of their first addresses; equal ones keep their order. -/
def flatten (sequences : List (List LineRow)) : List LineRow :=
  (sequences.mergeSort fun a b => firstAddress a ≤ firstAddress b).flatten

def ofRows (rows : List LineRow) (files : List String) (firstFile : UInt64) : LineTable :=
  ⟨flatten (sequences rows), files, firstFile⟩

/-- The directory that a file names. Before version 5 index zero says the compilation directory,
which is in front anyway. -/
def directoryOf? (header : Dwarf.LineHeader) (file : Dwarf.FileEntry) : Option Dwarf.Value :=
  if file.directory = 0 ∧ header.encoding.version < 5 then none
  else header.directory? file.directory

def decodeText (sections : Dwarf.Sections) (unit : Dwarf.CompilationUnit) (activity : String)
    (value : Dwarf.Value) : Except Fault (List Char) :=
  match unit.stringOf sections value with
  | .ok bytes => .ok (Text.Utf8.decode bytes)
  | .error cause => .error (.dwarf activity cause)

def pathComponents (sections : Dwarf.Sections) (unit : Dwarf.CompilationUnit) (header : Dwarf.LineHeader)
    (file : Dwarf.FileEntry) : Except Fault (List (List Char)) := do
  let compDir := (unit.compDir.map Text.Utf8.decode).getD []
  let directory ← match directoryOf? header file with
    | some value => decodeText sections unit "reading include directory" value
    | none => pure []
  let name ← decodeText sections unit "reading file name" file.path
  return [compDir, directory, name]

def renderFile (sections : Dwarf.Sections) (unit : Dwarf.CompilationUnit) (header : Dwarf.LineHeader)
    (file : Dwarf.FileEntry) : Except Fault String := do
  return String.ofList (RecordedPath.joinAll (← pathComponents sections unit header file))

def firstFileOf (header : Dwarf.LineHeader) : UInt64 :=
  if 5 ≤ header.encoding.version then 0 else 1

def read? (sections : Dwarf.Sections) (unit : Dwarf.CompilationUnit) : Except Fault (Option LineTable) :=
  match unit.lineHeader with
  | none => .ok none
  | some header => do
    let files ← header.files.mapM (renderFile sections unit header)
    match header.rows with
    | .error cause => throw (.dwarf "running line program" cause)
    | .ok rows => return some (ofRows (rows.map rowOf) files (firstFileOf header))

end LineTable

end Symbolizer
