import Symbolizer.Proofs.Dwarf.Reading
import Symbolizer.Proofs.Resolve.Groups

/-!
The image that debug information is taken from. It is the file itself when that has any, else the file
that its debug link leads to. A run over a file is the run over the object of that image under the path
of the file; when there is none, every address is reported to have no debug information.
-/

namespace Symbolizer

/-- Some entries of debug information, in the first section of that name. -/
def ObjectFile.HasDebugInfo (object : ObjectFile) : Prop :=
  ∃ data, object.sectionNamed? ".debug_info" = some data ∧ data ≠ []

namespace Resolve

/-- An image serves a path when it is found there with debug information, or is found with debug
information behind the link of an image without. -/
inductive Serves (files : FileSystem) (options : Options) (path : String) : Pe.Image → Prop where
  | own {primary : Pe.Image} (opens : Pe.Image.open files path = .ok primary)
      (informed : primary.object.HasDebugInfo) : Serves files options path primary
  | linked {primary satellite : Pe.Image} {link : DebugLink} {place : String}
      (opens : Pe.Image.open files path = .ok primary) (bare : ¬primary.object.HasDebugInfo)
      (follows : options.followDebugLink = true) (links : primary.object.debugLink? = some link)
      (located : Satellite.locate? files path link options.debugDirs = some place)
      (leads : Pe.Image.open files place = .ok satellite)
      (informed : satellite.object.HasDebugInfo) : Serves files options path satellite

def bareScript (path : String) (loadBase : Address) : List Address → Script
  | [] => []
  | first :: rest =>
    ⟨first, if loadBase = Address.zero then [] else [⟨loadBase, some path, .baseAddress⟩],
        [⟨first, some path, .noDebugSymbols⟩]⟩ ::
      rest.map fun address => ⟨address, [], [⟨address, some path, .noDebugSymbols⟩]⟩

theorem bareScript_eq (path : String) (loadBase : Address) (addresses : List Address) :
    bareScript path loadBase addresses = scriptOf path loadBase none true addresses := by
  cases addresses with
  | nil => rfl
  | cons first rest => rw [bareScript, scriptOf, if_pos rfl, announcement_eq]; rfl

theorem reports_bareScript (path : String) (loadBase : Address) (addresses : List Address) :
    (bareScript path loadBase addresses).reports =
      (if addresses = [] ∨ loadBase = Address.zero then []
        else [⟨loadBase, some path, .baseAddress⟩]) ++
        addresses.map fun address => ⟨address, some path, .noDebugSymbols⟩ := by
  by_cases none : addresses = []
  · rw [none]
    rfl
  · rw [bareScript_eq, reports_scriptOf true none, if_pos rfl, announcement_eq, List.map_eq_flatMap]
    simp only [none, false_or]
    rfl

/-! Where a source comes from. -/

variable {files : FileSystem} {options : Options} {path : String} {primary image : Pe.Image}

theorem ofObject?_isNone_iff (object : ObjectFile) :
    Dwarf.Sections.ofObject? object = none ↔ ¬object.HasDebugInfo := by
  unfold Dwarf.Sections.ofObject? ObjectFile.HasDebugInfo
  cases held : object.sectionNamed? ".debug_info" with
  | none => simp [held]
  | some data => cases data <;> simp [held]

theorem sourceOf?_eq_none_iff (naming : Naming) (object : ObjectFile) :
    sourceOf? naming object = none ↔ ¬object.HasDebugInfo := by
  rw [← ofObject?_isNone_iff]
  unfold sourceOf? Session.load
  cases Dwarf.Sections.ofObject? object <;> simp

theorem path_of_open (opens : Pe.Image.open files path = .ok image) : image.path = path := by
  unfold Pe.Image.open at opens
  split at opens
  next => cases opens
  next =>
    unfold Pe.Image.ofBytes at opens
    split at opens
    next => cases opens
    next =>
      split at opens
      next => cases opens
      next =>
        split at opens
        next => cases opens
        next =>
          cases opens
          rfl

theorem satellite?_eq_some_iff :
    satellite? files options primary = some image ↔
      options.followDebugLink = true ∧ ∃ link place, primary.object.debugLink? = some link ∧
        Satellite.locate? files primary.path link options.debugDirs = some place ∧
        Pe.Image.open files place = .ok image := by
  unfold satellite?
  cases options.followDebugLink with
  | false => simp [guard]
  | true => simp [guard, Option.bind_eq_some_iff, toOption_eq_some_iff]

theorem sourceOfFile?_of_serves {outside : Surroundings}
    (serves : Serves outside.files options path image) :
    sourceOfFile? outside options path =
      sourceOf? (namingOf outside.demanglers options) image.object := by
  unfold sourceOfFile?
  cases serves with
  | own opens informed =>
    rw [toOption_eq_some_iff.2 opens]
    dsimp only [Option.bind_eq_bind, Option.bind_some]
    cases own : sourceOf? (namingOf outside.demanglers options) image.object with
    | some source => rfl
    | none => exact absurd informed ((sourceOf?_eq_none_iff _ _).1 own)
  | linked opens bare follows links located leads informed =>
    have behind := satellite?_eq_some_iff.2
      ⟨follows, _, _, links, (path_of_open opens).symm ▸ located, leads⟩
    rw [toOption_eq_some_iff.2 opens]
    simp only [Option.bind_eq_bind, Option.bind_some, (sourceOf?_eq_none_iff _ _).2 bare, behind]

theorem serves_of_sourceOfFile? {outside : Surroundings} {source : DebugSource}
    (found : sourceOfFile? outside options path = some source) :
    ∃ image, Serves outside.files options path image := by
  simp only [sourceOfFile?, Option.bind_eq_bind, Option.bind_eq_some_iff] at found
  obtain ⟨primary, opened, found⟩ := found
  have opens := toOption_eq_some_iff.1 opened
  have informed {object : ObjectFile} {held : DebugSource}
      (own : sourceOf? (namingOf outside.demanglers options) object = some held) :
      object.HasDebugInfo := by
    by_contra bare
    rw [(sourceOf?_eq_none_iff _ _).2 bare] at own
    cases own
  split at found
  next own => exact ⟨primary, .own opens (informed own)⟩
  next none =>
    obtain ⟨satellite, behind, own⟩ := Option.bind_eq_some_iff.1 found
    obtain ⟨follows, link, place, links, located, leads⟩ := satellite?_eq_some_iff.1 behind
    rw [path_of_open opens] at located
    exact ⟨satellite, .linked opens ((sourceOf?_eq_none_iff _ _).1 none) follows links located leads
      (informed own)⟩

/-- A file is resolved as the object of the image that serves its path, under that path. Without such an
image nothing but the missing information is reported. Without addresses nothing is reported and no file
matters, and when the image at the path has debug information no other file and no setting for links
does. -/
theorem resolveFile_eq_resolveObject (outside : Surroundings) (options : Options) (path : String)
    (loadBase : Address) (sink : Sink σ) (state : σ) (addresses : List Address) :
    (∀ image, Serves outside.files options path image →
      resolveFile outside options path loadBase true sink state addresses =
        resolveObject outside.demanglers options image.object path loadBase sink state addresses) ∧
    ((∀ image, ¬Serves outside.files options path image) →
      resolveFile outside options path loadBase true sink state addresses =
          sink.play ⟨state, 0, .more⟩ (bareScript path loadBase addresses) ∧
        (bareScript path loadBase addresses).map Part.address = addresses ∧
        (bareScript path loadBase addresses).reports =
          (if addresses = [] ∨ loadBase = Address.zero then []
            else [⟨loadBase, some path, .baseAddress⟩]) ++
            addresses.map fun address => ⟨address, some path, .noDebugSymbols⟩) ∧
    (addresses = [] → ∀ (other : Surroundings) (choice : Options),
      resolveFile other choice path loadBase true sink state addresses = ⟨state, 0, .more⟩) ∧
    (∀ primary, Pe.Image.open outside.files path = .ok primary → primary.object.HasDebugInfo →
      ∀ (other : Surroundings) (choice : Options), other.demanglers = outside.demanglers →
        other.files.read path = outside.files.read path → choice.demangle = options.demangle →
        resolveFile other choice path loadBase true sink state addresses =
          resolveFile outside options path loadBase true sink state addresses) := by
  refine ⟨fun image serves => ?_, fun none => ?_, fun empty other choice => ?_,
    fun primary opens informed other choice demanglers reads demangle => ?_⟩
  · rw [resolveFile, resolveObject, sourceOfFile?_of_serves serves]
  · have bare : sourceOfFile? outside options path = .none := by
      cases found : sourceOfFile? outside options path with
      | none => rfl
      | some source =>
        obtain ⟨image, serves⟩ := serves_of_sourceOfFile? found
        exact absurd serves (none image)
    refine ⟨?_, ?_, reports_bareScript path loadBase addresses⟩
    · rw [resolveFile_eq_play, bare, bareScript_eq]
    · rw [bareScript_eq, map_address_scriptOf]
  · rw [empty]
    rfl
  · have opens_there : Pe.Image.open other.files path = .ok primary := by
      rw [← opens, Pe.Image.open, Pe.Image.open, reads]
    have naming : namingOf other.demanglers choice = namingOf outside.demanglers options := by
      rw [namingOf, namingOf, demanglers, demangle]
    rw [resolveFile, resolveFile, sourceOfFile?_of_serves (.own opens informed),
      sourceOfFile?_of_serves (.own opens_there informed), naming]

def imageWith (base : UInt8) (name data : Bytes) : Bytes :=
  [0x4d, 0x5a] ++ List.replicate 58 0 ++ [64, 0, 0, 0] ++ [0x50, 0x45, 0, 0] ++
    [0x4c, 1, 1, 0, 0, 0, 0, 0, 224, 0, 0, 0, 0, 0, 0, 0, 96, 0, 0, 0] ++
    [0x0b, 1] ++ List.replicate 28 0 ++ [base, 0] ++ List.replicate 64 0 ++
    [0x2f, 0x34, 0, 0, 0, 0, 0, 0, UInt8.ofNat data.length, 0, 0, 0, 0, 0, 0, 0,
      UInt8.ofNat data.length, 0, 0, 0, UInt8.ofNat (229 + name.length), 0, 0, 0] ++
    List.replicate 16 0 ++ [UInt8.ofNat (5 + name.length), 0, 0, 0] ++ name ++ [0] ++ data

def strippedFiles : FileSystem :=
  (FileTree.ofList [
    ("app.exe", imageWith 1 (Text.Utf8.ofText ".gnu_debuglink") (Text.Utf8.ofText "app.dbg")),
    (".debug/app.dbg", imageWith 2 (Text.Utf8.ofText ".debug_info") [1])]).toFileSystem

theorem strippedFiles_serves :
    ∃ satellite, Pe.Image.open strippedFiles ".debug/app.dbg" = .ok satellite ∧
      Serves strippedFiles Options.default "app.exe" satellite := by
  have found : (Pe.Image.open strippedFiles "app.exe").toOption.map (fun image =>
      (image.object.sectionNamed? ".debug_info", image.object.debugLink?)) =
        some (none, some ⟨"app.dbg", none⟩) := by decide +kernel
  have behind : (Pe.Image.open strippedFiles ".debug/app.dbg").toOption.map
      (fun image => image.object.sectionNamed? ".debug_info") = some (some [1]) := by decide +kernel
  have located : Satellite.locate? strippedFiles "app.exe" ⟨"app.dbg", none⟩ Options.default.debugDirs =
      some ".debug/app.dbg" := by decide +kernel
  obtain ⟨primary, opened, parts⟩ := Option.map_eq_some_iff.1 found
  obtain ⟨satellite, opened_too, held⟩ := Option.map_eq_some_iff.1 behind
  obtain ⟨without, links⟩ := Prod.mk.inj parts
  have leads := toOption_eq_some_iff.1 opened_too
  have bare : ¬primary.object.HasDebugInfo := by
    rintro ⟨data, wrong, _⟩
    rw [without] at wrong
    cases wrong
  exact ⟨satellite, leads, .linked (toOption_eq_some_iff.1 opened) bare rfl links located leads
    ⟨[1], held, by simp⟩⟩

/-- The image at the path has no debug information, and the one behind its link serves. -/
theorem resolveFile_eq_resolveObject_stripped :
    ∃ satellite, Pe.Image.open strippedFiles ".debug/app.dbg" = .ok satellite ∧
      Serves strippedFiles Options.default "app.exe" satellite ∧
      resolveFile ⟨strippedFiles, ⟨fun _ => none, fun _ => none⟩⟩ Options.default "app.exe" ⟨0x400000⟩ true
          Sink.collector [] [⟨0x401000⟩] =
        resolveObject ⟨fun _ => none, fun _ => none⟩ Options.default satellite.object "app.exe" ⟨0x400000⟩
          Sink.collector [] [⟨0x401000⟩] ∧
      (resolveObject ⟨fun _ => none, fun _ => none⟩ Options.default satellite.object "app.exe" ⟨0x400000⟩
          Sink.collector [] [⟨0x401000⟩]).state =
        [⟨⟨0x400000⟩, some "app.exe", .baseAddress⟩, ⟨⟨0x401000⟩, some "app.exe", .notFound⟩] := by
  obtain ⟨satellite, leads, serves⟩ := strippedFiles_serves
  have same := (resolveFile_eq_resolveObject ⟨strippedFiles, ⟨fun _ => none, fun _ => none⟩⟩ Options.default
    "app.exe" ⟨0x400000⟩ Sink.collector [] [⟨0x401000⟩]).1 satellite serves
  refine ⟨satellite, leads, serves, same, ?_⟩
  rw [← same]
  decide +kernel

end Resolve

end Symbolizer
