import Symbolizer.Proofs.Modules.Extents

/-!
Which module of a memory map owns an address. A module reaches over whatever lies between the mappings of
its file, so an address within an executable mapping can be in several modules at once: that of the file
behind the mapping, and those of files with mappings on both sides. The first of them in the order of their
bases owns the address.
-/

namespace Symbolizer

def Mapping.Holds (mapping : Mapping) (address : UInt64) : Prop :=
  mapping.low ≤ address ∧ address < mapping.high

def Mapping.Disjoint (one other : Mapping) : Prop :=
  ∀ address, ¬(one.Holds address ∧ other.Holds address)

instance : Std.Symm Mapping.Disjoint where
  symm _ _ never address both := never address both.symm

/-- The file of the module has a mapping below the address and one above it. -/
structure Module.Straddles (mappings : List Mapping) (module : Module) (address : UInt64) : Prop where
  below : ∃ mapping ∈ mappings, mapping.pathname = some module.path ∧
    mapping.low ≤ address ∧ mapping.high ≤ address
  above : ∃ mapping ∈ mappings, mapping.pathname = some module.path ∧
    address < mapping.low ∧ address < mapping.high

theorem Module.InFront.asymm {one other : Module} (before : one.InFront other) : ¬other.InFront one := by
  intro after
  rcases before with below | ⟨same, below⟩ <;> rcases after with lower | ⟨same_too, lower⟩
  · exact UInt64.lt_irrefl _ (UInt64.lt_trans below lower)
  · exact UInt64.lt_irrefl _ (same_too ▸ below)
  · exact UInt64.lt_irrefl _ (same ▸ lower)
  · exact lt_asymm below lower

namespace Modules

variable {mappings : List Mapping} {mapping : Mapping} {module owner : Module} {address : UInt64}
  {path : String}

theorem contains_iff (module : Module) (address : UInt64) :
    module.contains ⟨address⟩ = true ↔ module.base.value ≤ address ∧ address < module.limit.value := by
  have lower : (module.base ≤ ⟨address⟩) ↔ module.base.value ≤ address := Iff.rfl
  have upper : (⟨address⟩ < module.limit) ↔ address < module.limit.value := Iff.rfl
  simp only [Module.contains, Bool.and_eq_true, decide_eq_true_eq, lower, upper]

/-- The modules around an address of a mapping: that of its file, and those of files on both sides. -/
theorem contains_iff_of_holds (disjoint : mappings.Pairwise Mapping.Disjoint) (member : mapping ∈ mappings)
    (backed : mapping.pathname = some path) (holds : mapping.Holds address)
    (spans : module.SpansFile mappings) :
    module.contains ⟨address⟩ = true ↔ module.path = path ∨ module.Straddles mappings address := by
  obtain ⟨reached, within⟩ := holds
  rw [contains_iff]
  constructor
  · rintro ⟨low, high⟩
    by_cases own : module.path = path
    · exact .inl own
    -- A mapping of another file is disjoint from the one that holds the address.
    have avoids (other : Mapping) (inside : other ∈ mappings) (named : other.pathname = some module.path) :
        ¬other.Holds address := by
      have apart : mapping ≠ other := by
        rintro rfl
        exact own (Option.some.inj (named.symm.trans backed))
      exact fun holds_too => disjoint.forall member inside apart address ⟨⟨reached, within⟩, holds_too⟩
    obtain ⟨first, inside, named, starts⟩ := spans.starts
    obtain ⟨final, inside_too, named_too, ends⟩ := spans.ends
    have under : first.low ≤ address := starts ▸ low
    have over_it : address < final.high := ends ▸ high
    refine .inr ⟨⟨first, inside, named, under, ?_⟩, ⟨final, inside_too, named_too, ?_, over_it⟩⟩
    · apply UInt64.not_lt.1
      exact fun beyond => avoids first inside named ⟨under, beyond⟩
    · apply UInt64.not_le.1
      exact fun before => avoids final inside_too named_too ⟨before, over_it⟩
  · rintro (own | ⟨⟨below, inside, named, under, _⟩, above, inside_too, named_too, _, over_it⟩)
    · subst own
      have base := spans.lowest mapping member backed
      have limit := spans.highest mapping member backed
      exact ⟨UInt64.le_trans base reached, UInt64.lt_of_lt_of_le within limit⟩
    · have base := spans.lowest below inside named
      have limit := spans.highest above inside_too named_too
      exact ⟨UInt64.le_trans base under, UInt64.lt_of_lt_of_le over_it limit⟩

theorem first_of_owner? {address : Address} (found : (ofMappings mappings).owner? address = some owner) :
    owner.SpansFile mappings ∧ owner.contains address = true ∧
      ∀ other : Module, other.SpansFile mappings → other.contains address = true → other ≠ owner →
        owner.InFront other := by
  obtain ⟨contains, front, back, split, passed⟩ := List.find?_eq_some_iff_append.1 found
  have member : owner ∈ ofMappings mappings := by rw [split]; simp
  refine ⟨mem_ofMappings.1 member, contains, fun other spans contains_too apart => ?_⟩
  have listed := mem_ofMappings.2 spans
  have ordered := ofMappings_pairwise mappings
  rw [split] at listed ordered
  rcases List.mem_append.1 listed with before | here
  · have silent := passed other before
    rw [contains_too] at silent
    cases silent
  · rcases List.mem_cons.1 here with same | later
    · exact absurd same apart
    · exact (List.pairwise_cons.1 (List.pairwise_append.1 ordered).2.1).1 other later

def parsed (text : String) : List Mapping :=
  (Text.lines text.toList).filterMap Mapping.parse?

/-- In every memory map of disjoint mappings, an address within an executable mapping of a file has an owner:
the module of that file, or the first module of a file on both sides of the address when that one comes
before it. So the file behind the mapping owns the address exactly when its module is in front of those of
all other files on both sides. -/
theorem ofMaps_owner? (text : String) (address : UInt64) {mapping : Mapping} {path : String}
    (disjoint : (parsed text).Pairwise Mapping.Disjoint) (member : mapping ∈ parsed text)
    (backed : mapping.pathname = some path) (runs : mapping.isExecutable = true)
    (holds : mapping.Holds address) :
    ∃ own owner : Module, own.SpansFile (parsed text) ∧ own.path = path ∧
      (ofMaps text).owner? ⟨address⟩ = some owner ∧ owner.SpansFile (parsed text) ∧
      (owner = own ∨ owner.Straddles (parsed text) address ∧ owner.InFront own) ∧
      (∀ other : Module, other.SpansFile (parsed text) → other.Straddles (parsed text) address →
        other ≠ owner → owner.InFront other) ∧
      (owner = own ↔ ∀ other : Module, other.SpansFile (parsed text) → other.path ≠ path →
        other.Straddles (parsed text) address → own.InFront other) := by
  have around {module : Module} (spans : module.SpansFile (parsed text)) :=
    contains_iff_of_holds disjoint member backed holds spans
  obtain ⟨extent, inside, same⟩ := (sumUp_extents (parsed text)).known mapping member path backed
  have covers := (sumUp_extents (parsed text)).covers extent inside
  have own_spans : extent.toModule.SpansFile (parsed text) :=
    (spansFile_iff covers).2 (covers.executable.2 ⟨mapping, member, same ▸ backed, runs⟩)
  have own_path : extent.toModule.path = path := same
  have own_contains : extent.toModule.contains ⟨address⟩ = true := (around own_spans).2 (.inl own_path)
  obtain ⟨owner, found⟩ : ∃ owner, (ofMaps text).owner? ⟨address⟩ = some owner := by
    apply Option.isSome_iff_exists.1
    exact List.find?_isSome.2 ⟨_, mem_ofMappings.2 own_spans, own_contains⟩
  obtain ⟨spans, contains, first⟩ := first_of_owner? found
  have either : owner = extent.toModule ∨
      owner.Straddles (parsed text) address ∧ owner.InFront extent.toModule := by
    by_cases alone : owner = extent.toModule
    · exact .inl alone
    · right
      constructor
      · rcases (around spans).1 contains with here | straddles
        · exact absurd (eq_of_spansFile spans own_spans (here.trans own_path.symm)) alone
        · exact straddles
      · exact first _ own_spans own_contains fun same => alone same.symm
  refine ⟨extent.toModule, owner, own_spans, own_path, found, spans, either, ?_, ?_, ?_⟩
  · intro other spans_too straddles apart
    exact first other spans_too ((around spans_too).2 (.inr straddles)) apart
  · rintro rfl other spans_too elsewhere straddles
    apply first other spans_too ((around spans_too).2 (.inr straddles))
    rintro rfl
    exact elsewhere own_path
  · intro in_front
    rcases either with same | ⟨straddles, before⟩
    · exact same
    · by_cases here : owner.path = path
      · exact eq_of_spansFile spans own_spans (here.trans own_path.symm)
      · exact absurd before (in_front owner spans here straddles).asymm

def sandwich : String :=
  "1000-2000 r-xp 0 08:01 1 /a.exe\n3000-4000 r-xp 0 08:01 2 /b.dll\n5000-6000 rw-p 0 08:01 1 /a.exe\n"

def wideSandwich : String :=
  "500-600 r--p 0 08:01 2 /b.dll\n" ++ sandwich

theorem disjoint_of_le {one other : Mapping} (apart : one.high ≤ other.low) : one.Disjoint other := by
  rintro address ⟨⟨_, within⟩, ⟨reached, _⟩⟩
  exact UInt64.lt_irrefl _ (UInt64.lt_of_lt_of_le within (UInt64.le_trans apart reached))

theorem parsed_sandwich : parsed sandwich =
    [⟨0x1000, 0x2000, "r-xp", some "/a.exe"⟩, ⟨0x3000, 0x4000, "r-xp", some "/b.dll"⟩,
      ⟨0x5000, 0x6000, "rw-p", some "/a.exe"⟩] := by
  cbv

theorem parsed_wideSandwich : parsed wideSandwich =
    ⟨0x500, 0x600, "r--p", some "/b.dll"⟩ :: parsed sandwich := by
  cbv

theorem disjoint_sandwich : (parsed sandwich).Pairwise Mapping.Disjoint := by
  have rising : (parsed sandwich).Pairwise fun one other => one.high ≤ other.low := by
    rw [parsed_sandwich]
    decide
  exact rising.imp disjoint_of_le

theorem disjoint_wideSandwich : (parsed wideSandwich).Pairwise Mapping.Disjoint := by
  have rising : (parsed wideSandwich).Pairwise fun one other => one.high ≤ other.low := by
    rw [parsed_wideSandwich, parsed_sandwich]
    decide
  exact rising.imp disjoint_of_le

/-- The module of the program comes first and owns the code of the library. -/
theorem ofMaps_owner?_sandwich :
    (parsed sandwich).Pairwise Mapping.Disjoint ∧
      ∃ mapping ∈ parsed sandwich, mapping.pathname = some "/b.dll" ∧ mapping.isExecutable = true ∧
        mapping.Holds 0x3000 ∧
        (ofMaps sandwich).owner? ⟨0x3000⟩ = some ⟨"/a.exe", ⟨0x1000⟩, ⟨0x6000⟩⟩ := by
  refine ⟨disjoint_sandwich, ⟨0x3000, 0x4000, "r-xp", some "/b.dll"⟩, ?_, rfl, by decide,
    ⟨by decide, by decide⟩, ?_⟩
  · rw [parsed_sandwich]
    decide
  · cbv

/-- With its lower mapping the library comes first, and owns its code though the program is on both sides. -/
theorem ofMaps_owner?_wideSandwich :
    (parsed wideSandwich).Pairwise Mapping.Disjoint ∧
      ⟨0x3000, 0x4000, "r-xp", some "/b.dll"⟩ ∈ parsed wideSandwich ∧
      (⟨"/a.exe", ⟨0x1000⟩, ⟨0x6000⟩⟩ : Module).Straddles (parsed wideSandwich) 0x3000 ∧
      ∃ own owner : Module, own.SpansFile (parsed wideSandwich) ∧ own.path = "/b.dll" ∧
        (ofMaps wideSandwich).owner? ⟨0x3000⟩ = some owner ∧ owner = own := by
  have listed : parsed wideSandwich = [⟨0x500, 0x600, "r--p", some "/b.dll"⟩,
      ⟨0x1000, 0x2000, "r-xp", some "/a.exe"⟩, ⟨0x3000, 0x4000, "r-xp", some "/b.dll"⟩,
      ⟨0x5000, 0x6000, "rw-p", some "/a.exe"⟩] := by
    rw [parsed_wideSandwich, parsed_sandwich]
  have member : ⟨0x3000, 0x4000, "r-xp", some "/b.dll"⟩ ∈ parsed wideSandwich := by
    rw [listed]
    decide
  have between : (⟨"/a.exe", ⟨0x1000⟩, ⟨0x6000⟩⟩ : Module).Straddles (parsed wideSandwich) 0x3000 := by
    rw [listed]
    exact ⟨⟨⟨0x1000, 0x2000, "r-xp", some "/a.exe"⟩, by decide, rfl, by decide, by decide⟩,
      ⟨⟨0x5000, 0x6000, "rw-p", some "/a.exe"⟩, by decide, rfl, by decide, by decide⟩⟩
  obtain ⟨own, owner, own_spans, path, found, spans, _⟩ :=
    ofMaps_owner? wideSandwich 0x3000 disjoint_wideSandwich member rfl (by decide) ⟨by decide, by decide⟩
  have first : (ofMaps wideSandwich).owner? ⟨0x3000⟩ = some ⟨"/b.dll", ⟨0x500⟩, ⟨0x4000⟩⟩ := by cbv
  rw [first] at found
  cases found
  exact ⟨disjoint_wideSandwich, member, between, own, _, own_spans, path, first,
    eq_of_spansFile spans own_spans path.symm⟩

end Modules

end Symbolizer
