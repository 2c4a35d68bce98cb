import Symbolizer.Proofs.LineTable.FileNames
import Symbolizer.Proofs.RecordedPath.Joining

/-!
The paths of the files that line programs name. A file has a path exactly when the texts it is made of can be
read, and the path is what is written of them: the compilation directory, the directory that the file names,
if there is one, and the name of the file.
-/

namespace Symbolizer.LineTable

open Dwarf (CompilationUnit FileEntry LineHeader Sections Value)
open RecordedPath (Kept Rooted Written joinAll)

/-- Before version 5 directories count from one and zero names none, since then they count from zero. -/
def NamesDirectory (header : LineHeader) (file : FileEntry) (directory : Value) : Prop :=
  ∃ place, header.directories[place]? = some directory ∧ file.directory = firstIndex header + place

def ReadsAs (sections : Sections) (unit : CompilationUnit) (value : Value) (text : List Char) : Prop :=
  ∃ bytes, unit.stringOf sections value = .ok bytes ∧ Text.Utf8.decode bytes = text

inductive DirectoryReadsAs (sections : Sections) (unit : CompilationUnit) (header : LineHeader)
    (file : FileEntry) : Option (List Char) → Prop where
  | nowhere (missing : ∀ directory, ¬NamesDirectory header file directory) :
      DirectoryReadsAs sections unit header file none
  | placed {directory : Value} {text : List Char} (names : NamesDirectory header file directory)
      (reads : ReadsAs sections unit directory text) :
      DirectoryReadsAs sections unit header file (some text)

inductive UsesComponents (sections : Sections) (unit : CompilationUnit) (header : LineHeader)
    (file : FileEntry) : List (List Char) → Prop where
  | all {directory : Option (List Char)} {name : List Char}
      (within : DirectoryReadsAs sections unit header file directory)
      (named : ReadsAs sections unit file.path name) :
      UsesComponents sections unit header file
        ((unit.compDir.map Text.Utf8.decode).toList ++ directory.toList ++ [name])

variable {sections : Sections} {unit : CompilationUnit} {header : LineHeader} {file : FileEntry}
  {path : String}

theorem directoryOf?_eq_some_iff {directory : Value} :
    directoryOf? header file = some directory ↔ NamesDirectory header file directory := by
  unfold directoryOf? LineHeader.directory? NamesDirectory firstIndex
  by_cases old : header.encoding.version < 5
  · have before : header.encoding.version ≤ 4 := by omega
    simp only [old, before, and_true, ↓reduceIte]
    cases file.directory with
    | zero => simp; omega
    | succ place =>
      simp only [Nat.add_eq_zero_iff, Nat.one_ne_zero, and_false, ↓reduceIte]
      constructor
      · exact fun found => ⟨place, found, by omega⟩
      · rintro ⟨other, found, same⟩
        rwa [show place = other by omega]
  · have since : ¬header.encoding.version ≤ 4 := by omega
    simp only [old, since, and_false, ↓reduceIte, Nat.zero_add]
    constructor
    · exact fun found => ⟨_, found, rfl⟩
    · rintro ⟨place, found, same⟩
      rwa [same]

theorem decodeText_eq_ok_iff {activity : String} {value : Value} {text : List Char} :
    decodeText sections unit activity value = .ok text ↔ ReadsAs sections unit value text := by
  unfold decodeText ReadsAs
  cases unit.stringOf sections value <;> simp

theorem ReadsAs.unique {value : Value} {first second : List Char} (one : ReadsAs sections unit value first)
    (other : ReadsAs sections unit value second) : first = second := by
  obtain ⟨bytes, read, rfl⟩ := one
  obtain ⟨again, read_too, rfl⟩ := other
  rw [read] at read_too
  cases read_too
  rfl

theorem directory_eq_ok_iff {text : List Char} :
    (match directoryOf? header file with
      | some directory => decodeText sections unit "reading include directory" directory
      | none => .ok []) = .ok text ↔
      ∃ directory, DirectoryReadsAs sections unit header file directory ∧ directory.getD [] = text := by
  constructor
  · intro read
    cases found : directoryOf? header file with
    | none =>
      rw [found] at read
      cases read
      refine ⟨none, .nowhere fun directory names => ?_, rfl⟩
      rw [← directoryOf?_eq_some_iff, found] at names
      cases names
    | some directory =>
      rw [found] at read
      exact ⟨_, .placed (directoryOf?_eq_some_iff.1 found) (decodeText_eq_ok_iff.1 read), rfl⟩
  · rintro ⟨_, missing | ⟨names, reads⟩, rfl⟩
    · have none : directoryOf? header file = none :=
        Option.eq_none_iff_forall_ne_some.2 fun directory found =>
          missing directory (directoryOf?_eq_some_iff.1 found)
      rw [none]
      rfl
    · rw [directoryOf?_eq_some_iff.2 names]
      exact decodeText_eq_ok_iff.2 reads

theorem joinAll_optional (first second : Option (List Char)) (last : List Char) :
    joinAll [first.getD [], second.getD [], last] = joinAll (first.toList ++ second.toList ++ [last]) := by
  cases first <;> cases second <;> rfl

theorem renderFile_eq_ok_iff :
    renderFile sections unit header file = .ok path ↔
      ∃ components, UsesComponents sections unit header file components ∧
        joinAll components = path.toList := by
  have steps : renderFile sections unit header file = (do
      let directory ← (match directoryOf? header file with
        | some directory => decodeText sections unit "reading include directory" directory
        | none => .ok [])
      let name ← decodeText sections unit "reading file name" file.path
      .ok (String.ofList (joinAll [(unit.compDir.map Text.Utf8.decode).getD [], directory, name]))) := by
    unfold renderFile pathComponents
    cases directoryOf? header file with
    | none => cases decodeText sections unit "reading file name" file.path <;> rfl
    | some directory =>
      dsimp only
      cases decodeText sections unit "reading include directory" directory with
      | error fault => rfl
      | ok text => cases decodeText sections unit "reading file name" file.path <;> rfl
  rw [steps]
  simp only [bind_eq_ok, directory_eq_ok_iff, decodeText_eq_ok_iff, Except.ok.injEq]
  constructor
  · rintro ⟨_, ⟨directory, within, rfl⟩, name, named, rfl⟩
    exact ⟨_, .all within named, by rw [String.toList_ofList, joinAll_optional]⟩
  · rintro ⟨_, ⟨within, named⟩, joined⟩
    refine ⟨_, ⟨_, within, rfl⟩, _, named, ?_⟩
    rw [joinAll_optional, joined, String.ofList_toList]

/-- Every file has a path when the texts it is made of can be read, and no other file has one. The path is
what is written of the components that are kept; it ends with the name of the file, and nothing in front of a
rooted component has a part in it. -/
theorem renderFile_written (sections : Sections) (unit : CompilationUnit) (header : LineHeader)
    (file : FileEntry) :
    (∀ path, renderFile sections unit header file = .ok path ↔
      ∃ components kept, UsesComponents sections unit header file components ∧ Kept components kept ∧
        Written kept path.toList) ∧
    (∀ path name, renderFile sections unit header file = .ok path → ReadsAs sections unit file.path name →
      name <:+ path.toList) ∧
    ∀ dropped root behind, UsesComponents sections unit header file (dropped ++ root :: behind) →
      Rooted root →
        renderFile sections unit header file = .ok (String.ofList (joinAll (root :: behind))) := by
  refine ⟨fun path => ?_, fun path name made named => ?_, fun dropped root behind uses rooted => ?_⟩
  · rw [renderFile_eq_ok_iff]
    constructor
    · rintro ⟨components, uses, joined⟩
      obtain ⟨kept, keeps, written⟩ := RecordedPath.joinAll_eq_iff.1 joined
      exact ⟨components, kept, uses, keeps, written⟩
    · rintro ⟨components, kept, uses, keeps, written⟩
      exact ⟨components, uses, RecordedPath.joinAll_eq_iff.2 ⟨kept, keeps, written⟩⟩
  · obtain ⟨_, ⟨within, named_too⟩, joined⟩ := renderFile_eq_ok_iff.1 made
    rw [named.unique named_too, ← joined]
    exact RecordedPath.suffix_joinAll _ _
  · refine renderFile_eq_ok_iff.2 ⟨_, uses, ?_⟩
    rw [String.toList_ofList, RecordedPath.joinAll_behind_root dropped rooted]

def crossHeader : LineHeader where
  encoding := ⟨.dwarf32, 4, 8⟩
  minimumInstructionLength := 1
  maximumOperations := 1
  lineBase := -5
  lineRange := 14
  opcodeBase := 13
  operandCounts := [0, 1, 1, 1, 1, 0, 0, 0, 1, 0, 0, 1]
  directories := [.text [0x64, 0x3a, 0x2f, 0x78]]
  files := [⟨.text [0xc3, 0xbc, 0x2e, 0x63], 1⟩]
  program := []

def crossUnit : CompilationUnit where
  header := ⟨0, ⟨.dwarf32, 4, 8⟩, 0, 11, []⟩
  abbreviations := []
  bases := ⟨0, 0, 0⟩
  lowPc := 0
  compDir := some [0x2f, 0x62]
  lineHeader := some crossHeader

def crossFile : FileEntry := ⟨.text [0xc3, 0xbc, 0x2e, 0x63], 1⟩

def crossSections : Sections := ⟨[], [], [], [], [], [], [], [], []⟩

/-- The directory drops the one in front of it, and its drive asks for a backslash behind it. -/
theorem renderFile_written_crossDrive :
    UsesComponents crossSections crossUnit crossHeader crossFile ["/b".toList, "d:/x".toList, "ü.c".toList] ∧
      Rooted "d:/x".toList ∧
      renderFile crossSections crossUnit crossHeader crossFile =
        .ok (String.ofList (joinAll ["d:/x".toList, "ü.c".toList])) ∧
      renderFile crossSections crossUnit crossHeader crossFile = .ok "d:/x\\ü.c" ∧
      "ü.c".toList <:+ "d:/x\\ü.c".toList := by
  obtain ⟨_, ends, behind⟩ := renderFile_written crossSections crossUnit crossHeader crossFile
  have named : ReadsAs crossSections crossUnit crossFile.path "ü.c".toList := ⟨_, rfl, by decide⟩
  have within : DirectoryReadsAs crossSections crossUnit crossHeader crossFile (some "d:/x".toList) :=
    .placed ⟨0, rfl, rfl⟩ ⟨_, rfl, by decide⟩
  have uses : UsesComponents crossSections crossUnit crossHeader crossFile
      ["/b".toList, "d:/x".toList, "ü.c".toList] := .all within named
  have rooted : Rooted "d:/x".toList := .onDrive (.drive (by decide) (.inl rfl) _)
  have path : renderFile crossSections crossUnit crossHeader crossFile = .ok "d:/x\\ü.c" := by decide +kernel
  exact ⟨uses, rooted, behind ["/b".toList] "d:/x".toList ["ü.c".toList] uses rooted, path,
    ends _ _ path named⟩

end Symbolizer.LineTable
