import Symbolizer.Proofs.LineProgram.Declarations
import Symbolizer.Proofs.LineTable.Arrangement

/-!
The files that the rows of a table name. The table of files is that of the program's header, so a row has
the name that the program declares for it unless its file is one that the program adds on its way: such a
file has a path like any other, but the table has no name for it.
-/

namespace Symbolizer.LineTable

open Dwarf (CompilationUnit DeliveredRow FileEntry LineHeader LineInstruction Sections UnitHeader Value)

variable {table : LineTable} {index : UInt64} {path : String}

theorem fileName?_eq_some_iff :
    table.fileName? index = some path ↔
      ∃ place, table.files[place]? = some path ∧ index.toNat = table.firstFile.toNat + place := by
  unfold fileName?
  by_cases below : index < table.firstFile
  · rw [if_pos below]
    have low := UInt64.lt_iff_toNat_lt.1 below
    exact iff_of_false nofun fun ⟨place, _, same⟩ => by omega
  · have reached : table.firstFile ≤ index := UInt64.not_lt.1 below
    have order := UInt64.le_iff_toNat_le.1 reached
    rw [if_neg below, UInt64.toNat_sub_of_le _ _ reached]
    constructor
    · exact fun found => ⟨_, found, by omega⟩
    · rintro ⟨place, found, same⟩
      rwa [same, Nat.add_sub_cancel_left]

theorem fileName?_eq_none_iff (table : LineTable) (index : UInt64) :
    table.fileName? index = none ↔
      index < table.firstFile ∨ table.firstFile.toNat + table.files.length ≤ index.toNat := by
  rw [Option.eq_none_iff_forall_ne_some, UInt64.lt_iff_toNat_lt]
  simp only [ne_eq, fileName?_eq_some_iff]
  constructor
  · intro none
    by_contra! inside
    have place : index.toNat - table.firstFile.toNat < table.files.length := by omega
    exact none _ ⟨_, List.getElem?_eq_getElem place, by omega⟩
  · rintro outside path ⟨place, found, same⟩
    have inside := (List.getElem?_eq_some_iff.1 found).1
    omega

/-! What a program declares about its rows. -/

def firstIndex (header : LineHeader) : Nat :=
  if header.encoding.version < 5 then 1 else 0

theorem toNat_firstFileOf (header : LineHeader) : (firstFileOf header).toNat = firstIndex header := by
  unfold firstFileOf firstIndex
  split <;> split <;> first | rfl | omega

def Denotes (header : LineHeader) (files : List FileEntry) (index : UInt64) (file : FileEntry) : Prop :=
  ∃ place, files[place]? = some file ∧ index.toNat = firstIndex header + place

def DenotesAdded (header : LineHeader) (row : DeliveredRow) (index : UInt64) (file : FileEntry) : Prop :=
  ∃ place, row.added[place]? = some file ∧ index.toNat = firstIndex header + header.files.length + place

def fileOf (row : DeliveredRow) : UInt64 :=
  (rowOf row.registers).file

/-- The table has for a row the path of the file that its index denotes, which is one of the header or one
that the program has added in front of the row, and none when the index denotes no file. -/
structure NamedAsDeclared (sections : Sections) (unit : CompilationUnit) (header : LineHeader)
    (table : LineTable) (row : DeliveredRow) : Prop where
  named : ∀ file, Denotes header (header.files ++ row.added) (fileOf row) file →
    ∃ path, renderFile sections unit header file = .ok path ∧ table.fileName? (fileOf row) = some path
  nameless : (∀ file, ¬Denotes header (header.files ++ row.added) (fileOf row) file) →
    table.fileName? (fileOf row) = none

variable {sections : Sections} {unit : CompilationUnit} {header : LineHeader} {row : DeliveredRow}
  {rows : List DeliveredRow} {file : FileEntry} {names : List String}

theorem Denotes.mem {files : List FileEntry} (denotes : Denotes header files index file) : file ∈ files := by
  obtain ⟨place, found, _⟩ := denotes
  exact List.mem_of_getElem? found

theorem DenotesAdded.mem (added : DenotesAdded header row index file) : file ∈ row.added := by
  obtain ⟨place, found, _⟩ := added
  exact List.mem_of_getElem? found

theorem denotes_append :
    Denotes header (header.files ++ row.added) index file ↔
      Denotes header header.files index file ∨ DenotesAdded header row index file := by
  constructor
  · rintro ⟨place, found, same⟩
    by_cases inside : place < header.files.length
    · rw [List.getElem?_append_left inside] at found
      exact .inl ⟨place, found, same⟩
    · rw [List.getElem?_append_right (Nat.not_lt.1 inside)] at found
      exact .inr ⟨_, found, by omega⟩
  · rintro (⟨place, found, same⟩ | ⟨place, found, same⟩)
    · have inside := (List.getElem?_eq_some_iff.1 found).1
      exact ⟨place, by rwa [List.getElem?_append_left inside], same⟩
    · refine ⟨header.files.length + place, ?_, by omega⟩
      rwa [List.getElem?_append_right (Nat.le_add_right _ _), Nat.add_sub_cancel_left]

theorem not_denotes_of_added (added : DenotesAdded header row index file) (other : FileEntry) :
    ¬Denotes header header.files index other := by
  obtain ⟨place, _, same⟩ := added
  rintro ⟨own, found, same_too⟩
  have inside := (List.getElem?_eq_some_iff.1 found).1
  omega

/-! The table of a program. -/

/-- Where all files of the header have a path, the table has these paths and the delivered rows. -/
theorem read?_eq_some_iff (program : unit.lineHeader = some header) (ran : header.deliveredRows = .ok rows) :
    read? sections unit = .ok (some table) ↔
      ∃ names, header.files.map (renderFile sections unit header) = names.map .ok ∧
        table = ofRows (rows.map fun row => rowOf row.registers) names (firstFileOf header) := by
  have delivered : header.rows = .ok (rows.map DeliveredRow.registers) := by
    rw [← Dwarf.map_deliveredRows, ran]
    rfl
  simp only [read?, program, delivered, bind_eq_ok, mapM_eq_ok_iff, List.map_map]
  refine exists_congr fun names => and_congr_right fun _ => ?_
  simp only [pure, Except.pure, Except.ok.injEq, Option.some.injEq]
  exact eq_comm

theorem ofRows_rows_perm (rows : List LineRow) (files : List String) (firstFile : UInt64) :
    (ofRows rows files firstFile).rows.Perm rows := by
  have same := map_arranged id rows
  rw [List.map_id, List.map_id] at same
  rw [ofRows, ← same]
  exact arranged_perm id rows

def NamesHeader (sections : Sections) (unit : CompilationUnit) (header : LineHeader) (table : LineTable) :
    Prop :=
  ∀ index path, table.fileName? index = some path ↔
    ∃ file, Denotes header header.files index file ∧ renderFile sections unit header file = .ok path

theorem namesHeader_ofRows (rendered : header.files.map (renderFile sections unit header) = names.map .ok)
    (held : List LineRow) : NamesHeader sections unit header (ofRows held names (firstFileOf header)) := by
  intro index path
  have here (place : Nat) : names[place]? = some path ↔
      ∃ file, header.files[place]? = some file ∧ renderFile sections unit header file = .ok path := by
    have same := congrArg (·[place]?) rendered
    simp only [List.getElem?_map] at same
    rw [← Option.map_eq_some_iff, same]
    simp
  rw [fileName?_eq_some_iff]
  simp only [ofRows, here, toNat_firstFileOf]
  constructor
  · rintro ⟨place, ⟨file, found, path⟩, same⟩
    exact ⟨file, ⟨place, found, same⟩, path⟩
  · rintro ⟨file, ⟨place, found, same⟩, path⟩
    exact ⟨place, ⟨file, found, path⟩, same⟩

theorem renderFile_of_spelled {size : Nat} (sound : header.Sound size) (old : header.encoding.version ≤ 4)
    (spelled : ∃ text, file.path = .text text) :
    ∃ path, renderFile sections unit header file = .ok path := by
  obtain ⟨name, spelled⟩ := spelled
  have named : decodeText sections unit "reading file name" file.path = .ok (Text.Utf8.decode name) := by
    rw [spelled]
    rfl
  have placed (directory : Value) (found : directoryOf? header file = some directory) :
      ∃ text, decodeText sections unit "reading include directory" directory = .ok text := by
    have member : directory ∈ header.directories := by
      unfold directoryOf? LineHeader.directory? at found
      rw [if_pos old] at found
      split at found
      next => cases found
      next =>
        split at found
        next => cases found
        next => exact List.mem_of_getElem? found
    obtain ⟨text, rfl⟩ := sound.spelled old directory member
    exact ⟨_, rfl⟩
  unfold renderFile pathComponents
  cases found : directoryOf? header file with
  | none => exact ⟨_, by rw [named]; rfl⟩
  | some directory =>
    obtain ⟨text, decoded⟩ := placed directory found
    exact ⟨_, by simp only [decoded, named]; rfl⟩

theorem NamesHeader.namedAsDeclared (names : NamesHeader sections unit header table)
    (rendered : ∀ file ∈ header.files, ∃ path, renderFile sections unit header file = .ok path)
    (own : ∀ file, ¬DenotesAdded header row (fileOf row) file) :
    NamedAsDeclared sections unit header table row := by
  constructor
  · intro file denotes
    have listed : Denotes header header.files (fileOf row) file :=
      (denotes_append.1 denotes).resolve_right (own file)
    obtain ⟨path, render⟩ := rendered file listed.mem
    exact ⟨path, render, (names _ path).2 ⟨file, listed, render⟩⟩
  · intro nowhere
    refine Option.eq_none_iff_forall_ne_some.2 fun path found => ?_
    obtain ⟨file, denotes, _⟩ := (names _ path).1 found
    exact nowhere file (denotes_append.2 (.inl denotes))

theorem NamesHeader.nameless_of_added (names : NamesHeader sections unit header table)
    (added : DenotesAdded header row index file) : table.fileName? index = none := by
  refine Option.eq_none_iff_forall_ne_some.2 fun path found => ?_
  obtain ⟨other, denotes, _⟩ := (names _ path).1 found
  exact not_denotes_of_added added other denotes

/-- For every unit whose line program runs: it has a table exactly when all files of the header have a path.
The rows of the table are those that the program delivers, and a row is named as the program declares exactly
when its file is not one that the program adds. Such a file has a path too, but the row has no name. From
version 5 on no program adds files, so there all rows are named as declared. -/
theorem namedAsDeclared_iff {own : UnitHeader} (reads : CompilationUnit.read sections own = .ok unit)
    (program : unit.lineHeader = some header) (ran : header.deliveredRows = .ok rows) :
    ((∃ table, read? sections unit = .ok (some table)) ↔
      ∀ file ∈ header.files, ∃ path, renderFile sections unit header file = .ok path) ∧
    ∀ table, read? sections unit = .ok (some table) →
      table.rows.Perm (rows.map fun row => rowOf row.registers) ∧
      ∀ row ∈ rows,
        (NamedAsDeclared sections unit header table row ↔
          ∀ file, ¬DenotesAdded header row (fileOf row) file) ∧
        (∀ file, DenotesAdded header row (fileOf row) file → header.encoding.version ≤ 4 ∧
          (∃ path, renderFile sections unit header file = .ok path) ∧
          table.fileName? (fileOf row) = none) := by
  have sound := CompilationUnit.lineHeader_sound reads header program
  constructor
  · rw [← exists_map_ok_iff]
    constructor
    · rintro ⟨table, found⟩
      obtain ⟨names, rendered, _⟩ := (read?_eq_some_iff program ran).1 found
      exact ⟨names, rendered⟩
    · rintro ⟨names, rendered⟩
      exact ⟨_, (read?_eq_some_iff program ran).2 ⟨names, rendered, rfl⟩⟩
  · intro table found
    obtain ⟨paths, rendered, same⟩ := (read?_eq_some_iff program ran).1 found
    have names : NamesHeader sections unit header table := same ▸ namesHeader_ofRows rendered _
    refine ⟨same ▸ ofRows_rows_perm _ _ _, fun row member => ?_⟩
    have nameless (file : FileEntry) (added : DenotesAdded header row (fileOf row) file) :
        header.encoding.version ≤ 4 ∧ (∃ path, renderFile sections unit header file = .ok path) ∧
          table.fileName? (fileOf row) = none := by
      obtain ⟨old, spelled⟩ := Dwarf.spelled_of_added ran member added.mem
      exact ⟨old, renderFile_of_spelled sound old spelled, names.nameless_of_added added⟩
    refine ⟨⟨fun declared file added => ?_, names.namedAsDeclared (exists_map_ok_iff.1 ⟨paths, rendered⟩)⟩,
      nameless⟩
    obtain ⟨path, _, found⟩ := declared.named file (denotes_append.2 (.inr added))
    rw [(nameless file added).2.2] at found
    cases found

/-- The header of a program has the file a. On its way the program adds b in the directory d. Its rows name the
first, the second and a third file. -/
def latecomer : Sections where
  info := [0x18, 0, 0, 0, 4, 0, 0, 0, 0, 0, 8, 1, 0, 0, 0, 0, 0, 0x10, 0, 0, 0, 0, 0, 0, 0, 0x10, 0, 0]
  abbreviations := [1, 0x11, 0, 0x10, 0x17, 0x11, 1, 0x12, 6, 0, 0, 0]
  line := [0x44, 0, 0, 0, 4, 0, 0x1b, 0, 0, 0, 1, 1, 1, 0xfb, 0x0e, 0x0d, 0, 1, 1, 1, 1, 0, 0, 0, 1, 0, 0, 1,
    0x64, 0, 0, 0x61, 0, 0, 0, 0, 0,
    0, 9, 2, 0, 0x10, 0, 0, 0, 0, 0, 0, 1, 0, 6, 3, 0x62, 0, 1, 0, 0, 4, 2, 2, 4, 1, 4, 3, 2, 4, 1,
    2, 4, 0, 1, 1]
  str := []
  lineStr := []
  strOffsets := []
  addr := []
  ranges := []
  rnglists := []

def latecomerHeader : LineHeader where
  encoding := ⟨.dwarf32, 4, 8⟩
  minimumInstructionLength := 1
  maximumOperations := 1
  lineBase := -5
  lineRange := 14
  opcodeBase := 13
  operandCounts := [0, 1, 1, 1, 1, 0, 0, 0, 1, 0, 0, 1]
  directories := [.text [0x64]]
  files := [⟨.text [0x61], 0⟩]
  program := [0, 9, 2, 0, 0x10, 0, 0, 0, 0, 0, 0, 1, 0, 6, 3, 0x62, 0, 1, 0, 0, 4, 2, 2, 4, 1, 4, 3, 2, 4, 1,
    2, 4, 0, 1, 1]

def latecomerUnit : CompilationUnit where
  header := ⟨0, ⟨.dwarf32, 4, 8⟩, 0, 11, [1, 0, 0, 0, 0, 0, 0x10, 0, 0, 0, 0, 0, 0, 0, 0x10, 0, 0]⟩
  abbreviations := [⟨1, 0x11, false, [⟨0x10, 0x17, none⟩, ⟨0x11, 1, none⟩, ⟨0x12, 6, none⟩]⟩]
  bases := ⟨0, 0, 0⟩
  lowPc := 0x1000
  compDir := none
  lineHeader := some latecomerHeader

def latecomerFile : FileEntry := ⟨.text [0x62], 1⟩

def latecomerRow (count address file : Nat) (ends : Bool) : DeliveredRow where
  executed := [LineInstruction.setAddress 0x1000, .copy, .defineFile latecomerFile, .setFile 2, .advancePc 4,
    .copy, .setFile 3, .advancePc 4, .copy, .advancePc 4, .endSequence].take count
  registers := ⟨address, 0, file, 1, 0, ends, false⟩

def latecomerRows : List DeliveredRow :=
  [latecomerRow 2 0x1000 1 false, latecomerRow 6 0x1004 2 false, latecomerRow 9 0x1008 3 false,
    latecomerRow 11 0x100c 3 true]

def latecomerTable : LineTable :=
  ⟨[⟨0x1000, 1, 1, 0, false⟩, ⟨0x1004, 2, 1, 0, false⟩, ⟨0x1008, 3, 1, 0, false⟩, ⟨0x100c, 3, 1, 0, true⟩],
    ["a"], 1⟩

theorem read_latecomer : CompilationUnit.read latecomer latecomerUnit.header = .ok latecomerUnit := by rfl

theorem deliveredRows_latecomer : latecomerHeader.deliveredRows = .ok latecomerRows := by cbv

theorem read?_latecomer : read? latecomer latecomerUnit = .ok (some latecomerTable) := by cbv

theorem denotesAdded_latecomer :
    DenotesAdded latecomerHeader (latecomerRow 6 0x1004 2 false) 2 latecomerFile :=
  ⟨0, rfl, rfl⟩

/-- The first row has its name, and the third rightly has none. The second has none either, though the
program has added its file. -/
theorem namedAsDeclared_iff_latecomer :
    CompilationUnit.read latecomer latecomerUnit.header = .ok latecomerUnit ∧
      latecomerHeader.deliveredRows = .ok latecomerRows ∧
      read? latecomer latecomerUnit = .ok (some latecomerTable) ∧
      NamedAsDeclared latecomer latecomerUnit latecomerHeader latecomerTable (latecomerRow 2 0x1000 1 false) ∧
      NamedAsDeclared latecomer latecomerUnit latecomerHeader latecomerTable (latecomerRow 9 0x1008 3 false) ∧
      DenotesAdded latecomerHeader (latecomerRow 6 0x1004 2 false) 2 latecomerFile ∧
      latecomerTable.fileName? 2 = none := by
  obtain ⟨_, named⟩ := namedAsDeclared_iff read_latecomer rfl deliveredRows_latecomer
  obtain ⟨_, rows⟩ := named latecomerTable read?_latecomer
  obtain ⟨first, _⟩ := rows (latecomerRow 2 0x1000 1 false) (by decide)
  obtain ⟨_, second⟩ := rows (latecomerRow 6 0x1004 2 false) (by decide)
  obtain ⟨third, _⟩ := rows (latecomerRow 9 0x1008 3 false) (by decide)
  refine ⟨read_latecomer, deliveredRows_latecomer, read?_latecomer, first.2 ?_, third.2 ?_,
    denotesAdded_latecomer, (second latecomerFile denotesAdded_latecomer).2.2⟩
  · rintro file ⟨place, found, _⟩
    cases found
  · rintro file ⟨place, found, same⟩
    have behind : place = 1 := by
      change 3 = 1 + 1 + place at same
      omega
    rw [behind] at found
    cases found

/-- The added file has a path, and its row is not named by it. -/
theorem not_namedAsDeclared_latecomer :
    CompilationUnit.read latecomer latecomerUnit.header = .ok latecomerUnit ∧
      latecomerHeader.deliveredRows = .ok latecomerRows ∧
      read? latecomer latecomerUnit = .ok (some latecomerTable) ∧
      renderFile latecomer latecomerUnit latecomerHeader latecomerFile = .ok "d/b" ∧
      latecomerRow 6 0x1004 2 false ∈ latecomerRows ∧
      ¬NamedAsDeclared latecomer latecomerUnit latecomerHeader latecomerTable
        (latecomerRow 6 0x1004 2 false) := by
  refine ⟨read_latecomer, deliveredRows_latecomer, read?_latecomer, by cbv, by decide, fun declared => ?_⟩
  obtain ⟨path, _, found⟩ := declared.named latecomerFile (denotes_append.2 (.inr denotesAdded_latecomer))
  cases found

end Symbolizer.LineTable
