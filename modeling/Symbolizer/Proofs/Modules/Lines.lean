import Symbolizer.Proofs.Modules.Ownership

/-!
What the lines of a memory map say of its modules. Only lines that tell of a file count, and of them only
which there are: their order, the lines between them and their repetition make no difference. The modules
are the files with an executable mapping, each from its lowest mapping to its highest, in the order of their
bases and then of their paths.
-/

namespace Symbolizer

/-- The line tells of a mapping with a file behind it: it can be read, and its pathname is neither empty nor
in brackets. -/
def Mapping.isBacked (line : List Char) : Bool :=
  ((Mapping.parse? line).bind Mapping.pathname).isSome

instance : Std.Asymm Module.InFront where
  asymm _ _ := Module.InFront.asymm

namespace Modules

variable {mappings others : List Mapping} {mapping : Mapping} {module : Module} {text other : String}
  {path : String}

def backedLines (text : String) : List (List Char) :=
  (Text.lines text.toList).filter Mapping.isBacked

/-- A module needs the mappings of files, and no more of them than that they are there. -/
theorem SpansFile.of_backed (spans : module.SpansFile mappings)
    (same : ∀ mapping, mapping.pathname.isSome → (mapping ∈ mappings ↔ mapping ∈ others)) :
    module.SpansFile others := by
  have kept {held : Mapping} (named : held.pathname = some module.path) : held ∈ mappings ↔ held ∈ others :=
    same held (by rw [named]; rfl)
  obtain ⟨⟨run, inside, named, runs⟩, ⟨first, inside_first, named_first, starts⟩, lowest,
    ⟨last, inside_last, named_last, ends⟩, highest⟩ := spans
  refine ⟨⟨run, (kept named).1 inside, named, runs⟩, ⟨first, ?_, named_first, starts⟩, ?_,
    ⟨last, ?_, named_last, ends⟩, ?_⟩
  · exact (kept named_first).1 inside_first
  · exact fun held member here => lowest held ((kept here).2 member) here
  · exact (kept named_last).1 inside_last
  · exact fun held member here => highest held ((kept here).2 member) here

theorem mem_parsed_iff (backed : mapping.pathname.isSome) :
    mapping ∈ parsed text ↔ ∃ line ∈ backedLines text, Mapping.parse? line = some mapping := by
  simp only [parsed, backedLines, List.mem_filterMap, List.mem_filter]
  constructor
  · rintro ⟨line, member, told⟩
    exact ⟨line, ⟨member, by rw [Mapping.isBacked, told]; exact backed⟩, told⟩
  · rintro ⟨line, ⟨member, _⟩, told⟩
    exact ⟨line, member, told⟩

theorem mem_map_path_iff :
    path ∈ (ofMappings mappings).map Module.path ↔
      ∃ mapping ∈ mappings, mapping.pathname = some path ∧ mapping.isExecutable = true := by
  rw [List.mem_map]
  constructor
  · rintro ⟨module, member, rfl⟩
    exact (mem_ofMappings.1 member).executable
  · rintro ⟨mapping, member, named, runs⟩
    obtain ⟨extent, inside, rfl⟩ := (sumUp_extents mappings).known mapping member path named
    have covers := (sumUp_extents mappings).covers extent inside
    have spans := (spansFile_iff covers).2 (covers.executable.2 ⟨mapping, member, named, runs⟩)
    exact ⟨extent.toModule, mem_ofMappings.2 spans, rfl⟩

theorem ofMappings_nodup (mappings : List Mapping) : ((ofMappings mappings).map Module.path).Nodup := by
  rw [List.Nodup, List.pairwise_map]
  refine (ofMappings_pairwise mappings).imp_of_mem fun {one other} member member_too before same => ?_
  have equal := eq_of_spansFile (mem_ofMappings.1 member) (mem_ofMappings.1 member_too) same
  subst equal
  exact before.asymm before

/-- In every memory map the modules are those of the files with an executable mapping, one for each such
file, from the lowest of all its mappings to the highest. They stand in the order of their bases, and where
these are equal of their paths. Another map with the same lines of files, in whatever order and between
whatever other lines, has the same list of modules. -/
theorem ofMaps_eq_of_backedLines (text : String) :
    (∀ path, path ∈ (ofMaps text).map Module.path ↔
      ∃ mapping ∈ parsed text, mapping.pathname = some path ∧ mapping.isExecutable = true) ∧
    ((ofMaps text).map Module.path).Nodup ∧
    (∀ module, module ∈ ofMaps text ↔ module.SpansFile (parsed text)) ∧
    (ofMaps text).Pairwise Module.InFront ∧
    ∀ other : String, (backedLines other).Perm (backedLines text) → ofMaps other = ofMaps text := by
  refine ⟨fun path => mem_map_path_iff, ofMappings_nodup _, fun module => mem_ofMappings,
    ofMappings_pairwise _, fun other same => ?_⟩
  have told (mapping : Mapping) (backed : mapping.pathname.isSome) :
      mapping ∈ parsed other ↔ mapping ∈ parsed text := by
    simp only [mem_parsed_iff backed, same.mem_iff]
  apply (ofMappings_pairwise (parsed other)).eq_of_mem_iff (ofMappings_pairwise (parsed text))
  intro module
  rw [mem_ofMappings, mem_ofMappings]
  constructor
  · exact fun spans => SpansFile.of_backed spans told
  · exact fun spans => SpansFile.of_backed spans fun mapping backed => (told mapping backed).symm

def tangled : String :=
  "30-40 r--p 0 0 2 b\n?\n10-20 r-xp 0 0 1 z\n50-60 r--p 0 0 3 d\n70-80 r-xp 0 0 0 [h]\n10-18 r-xp 0 0 2 b\n"

def orderly : String :=
  "10-18 r-xp 0 0 2 b\n10-20 r-xp 0 0 1 z\n30-40 r--p 0 0 2 b\n50-60 r--p 0 0 3 d\n"

theorem backedLines_tangled : backedLines tangled =
    ["30-40 r--p 0 0 2 b".toList, "10-20 r-xp 0 0 1 z".toList, "50-60 r--p 0 0 3 d".toList,
      "10-18 r-xp 0 0 2 b".toList] := by
  cbv

theorem backedLines_orderly : backedLines orderly =
    ["10-18 r-xp 0 0 2 b".toList, "10-20 r-xp 0 0 1 z".toList, "30-40 r--p 0 0 2 b".toList,
      "50-60 r--p 0 0 3 d".toList] := by
  cbv

/-- Both maps have the modules of two files with one base, and none for the file without executable
mappings. -/
theorem ofMaps_eq_of_backedLines_tangled :
    (backedLines tangled).Perm (backedLines orderly) ∧ ofMaps tangled = ofMaps orderly ∧
      ofMaps orderly = [⟨"b", ⟨0x10⟩, ⟨0x40⟩⟩, ⟨"z", ⟨0x10⟩, ⟨0x20⟩⟩] := by
  have same : (backedLines tangled).Perm (backedLines orderly) := by
    rw [backedLines_tangled, backedLines_orderly]
    decide
  obtain ⟨_, _, _, _, determined⟩ := ofMaps_eq_of_backedLines orderly
  refine ⟨same, determined tangled same, ?_⟩
  cbv

end Modules

end Symbolizer
