import Symbolizer.Proofs.Inline.Suppliers
import Symbolizer.Proofs.Resolve.Groups
import Symbolizer.Proofs.Session.Lookup

/-!
What demangling changes in the reports of a run: names and nothing else. With and without it the same
units answer, the same scopes are listed and each takes its name from the same entry. The stored names
differ only when that entry has a linkage name without a readable form beside a plain name, which is then
shown in its place.
-/

namespace Symbolizer

open NameSource (Supplier)
open ScopeSource (SameSupplier SameFrame)

/-- A linkage name that is mangled and has no readable form, and the plain name beside it. -/
structure Naming.Rejected (demanglers : Mangling.Demanglers) (names : Naming.Names)
    (linkage plain : String) : Prop where
  linked : names.linkage.or names.mipsLinkage = some linkage
  named : names.plain = some plain
  mangled : Mangling.classify linkage.toList = .rust ∨ Mangling.classify linkage.toList = .cpp
  unreadable : demanglers.apply (Mangling.classify linkage.toList) linkage = none

/-- What is shown of the names of one entry, and what of them is stored. A rejected linkage name gives way
to the plain name; every other name is shown as it is stored. -/
structure Naming.Counterparts (demanglers : Mangling.Demanglers) (names : Naming.Names)
    (shown stored : SymbolName) : Prop where
  chosen : Naming.choose ⟨true, demanglers⟩ names = some shown
  kept : Naming.choose ⟨false, demanglers⟩ names = some stored
  language : shown.language = stored.language
  replaced : ∀ linkage plain, Naming.Rejected demanglers names linkage plain →
    shown.raw = plain ∧ stored.raw = linkage
  same : (∀ linkage plain, ¬Naming.Rejected demanglers names linkage plain) → shown.raw = stored.raw

def Resolution.unnamed : Resolution → Resolution
  | .resolved location _ => .resolved location none
  | other => other

structure FrameReport.SameButName (same : SymbolName → SymbolName → Prop) (first second : FrameReport) :
    Prop where
  address : first.address = second.address
  module : first.module = second.module
  resolution : first.resolution.unnamed = second.resolution.unnamed
  function : Option.Rel same first.function? second.function?

structure Part.SameButNames (same : Address → SymbolName → SymbolName → Prop) (first second : Part) :
    Prop where
  address : first.address = second.address
  lead : first.lead = second.lead
  answers : List.Forall₂ (FrameReport.SameButName (same first.address)) first.answers second.answers

/-! The names of one entry under two settings. -/

namespace Naming

variable {demanglers : Mangling.Demanglers} {names : Names} {linkage plain : String}

/-- The name that is stored: the first linkage name, else the plain one. -/
def Names.stored? (names : Names) : Option String :=
  (names.linkage.or names.mipsLinkage).or names.plain

theorem choose_stored (demanglers : Mangling.Demanglers) (names : Names) :
    choose ⟨false, demanglers⟩ names = names.stored?.map (symbol ⟨false, demanglers⟩) := by
  obtain ⟨linkage, mips, plain⟩ := names
  cases linkage <;> cases mips <;> cases plain <;> rfl

theorem isUndemangled_symbol (demanglers : Mangling.Demanglers) (raw : String) :
    isUndemangled (symbol ⟨true, demanglers⟩ raw) = true ↔
      (Mangling.classify raw.toList = .rust ∨ Mangling.classify raw.toList = .cpp) ∧
        demanglers.apply (Mangling.classify raw.toList) raw = none := by
  simp [isUndemangled, symbol, and_comm]

theorem choose_of_rejected (rejected : Rejected demanglers names linkage plain) :
    choose ⟨true, demanglers⟩ names = some ⟨plain, none, Mangling.classify linkage.toList⟩ := by
  have unreadable := (isUndemangled_symbol demanglers linkage).2 ⟨rejected.mangled, rejected.unreadable⟩
  simp only [choose, rejected.linked, rejected.named, unreadable, Bool.and_self, ↓reduceIte]
  rfl

theorem choose_of_not_rejected (accepted : ∀ linkage plain, ¬Rejected demanglers names linkage plain) :
    choose ⟨true, demanglers⟩ names = names.stored?.map (symbol ⟨true, demanglers⟩) := by
  unfold choose Names.stored?
  cases linked : names.linkage.or names.mipsLinkage with
  | none => cases names.plain <;> rfl
  | some linkage =>
    cases named : names.plain with
    | none => rfl
    | some plain =>
      have readable : isUndemangled (symbol ⟨true, demanglers⟩ linkage) = false := by
        rw [← Bool.not_eq_true, isUndemangled_symbol]
        rintro ⟨mangled, unreadable⟩
        exact accepted linkage plain ⟨linked, named, mangled, unreadable⟩
      simp [readable]

theorem counterparts_of_choose {shown stored : SymbolName}
    (chosen : choose ⟨true, demanglers⟩ names = some shown)
    (kept : choose ⟨false, demanglers⟩ names = some stored) :
    Counterparts demanglers names shown stored := by
  obtain ⟨raw, first, rfl⟩ := Option.map_eq_some_iff.1 ((choose_stored demanglers names).symm.trans kept)
  have replaced (linkage plain : String) (rejected : Rejected demanglers names linkage plain) :
      shown = ⟨plain, none, Mangling.classify linkage.toList⟩ ∧ raw = linkage := by
    refine ⟨Option.some.inj (chosen.symm.trans (choose_of_rejected rejected)), ?_⟩
    rw [Names.stored?, rejected.linked, Option.some_or] at first
    exact (Option.some.inj first).symm
  have same (accepted : ∀ linkage plain, ¬Rejected demanglers names linkage plain) :
      shown = symbol ⟨true, demanglers⟩ raw := by
    rw [choose_of_not_rejected accepted, first] at chosen
    exact (Option.some.inj chosen).symm
  refine ⟨chosen, kept, ?_, fun linkage plain rejected => ?_, fun accepted => ?_⟩
  · by_cases some_rejected : ∃ linkage plain, Rejected demanglers names linkage plain
    · obtain ⟨linkage, plain, rejected⟩ := some_rejected
      obtain ⟨rfl, rfl⟩ := replaced linkage plain rejected
      rfl
    · rw [same fun linkage plain rejected => some_rejected ⟨linkage, plain, rejected⟩]
      rfl
  · obtain ⟨rfl, rfl⟩ := replaced linkage plain rejected
    exact ⟨rfl, rfl⟩
  · rw [same accepted]
    rfl

end Naming

/-! Lookups under two settings. -/

namespace NameSource

def Supplies (source : NameSource) (address : UInt64) (supplier : Supplier) : Prop :=
  ∃ slot unit lines row, source.FirstToTell address slot unit lines row ∧
    ScopeSource.Supplies { source with unit, lines } address supplier

inductive SameLookup (same : LogicalFrame → LogicalFrame → Prop) : Lookup → Lookup → Prop
  | notFound : SameLookup same .notFound .notFound
  | found {first second : List LogicalFrame} (frames : List.Forall₂ same first second) :
      SameLookup same (.found first) (.found second)

variable {source : NameSource} {one other : Naming} {address : UInt64} {slot : Nat}
  {unit : Dwarf.CompilationUnit} {lines : LineTable} {row : LineRow}

theorem optionRel_imp {α β : Type} {strong weak : α → β → Prop} (step : ∀ a b, strong a b → weak a b)
    {first : Option α} {second : Option β} (related : Option.Rel strong first second) :
    Option.Rel weak first second := by
  cases related with
  | none => exact .none
  | some held => exact .some (step _ _ held)

theorem sameFrame_imp {strong weak : Supplier → Prop} (step : ∀ supplier, strong supplier → weak supplier)
    {one other : Naming} {first second : LogicalFrame} (same : SameFrame strong one other first second) :
    SameFrame weak one other first second := by
  refine ⟨same.location, optionRel_imp ?_ same.function⟩
  rintro _ _ ⟨supplier, supplies, chosen⟩
  exact ⟨supplier, step supplier supplies, chosen⟩

theorem framesAt_under (source : NameSource) (one other : Naming) (unit : Dwarf.CompilationUnit)
    (lines : LineTable) (row : LineRow) (address : UInt64) :
    List.Forall₂ (SameFrame (ScopeSource.Supplies { source with unit, lines } address) one other)
      ((source.under one).framesAt unit lines row address)
      ((source.under other).framesAt unit lines row address) := by
  let scopes : ScopeSource := { source with unit, lines }
  let leaf : Option SourceLocation := (lines.fileName? row.file).map (⟨·, row.line, row.column⟩)
  cases resolved : (scopes.under one).resolve address leaf with
  | ok first =>
    obtain ⟨second, resolved_too, same⟩ := ScopeSource.resolve_under other resolved
    have here : (source.under one).framesAt unit lines row address = first :=
      framesAt_of_resolved resolved
    have there : (source.under other).framesAt unit lines row address = second :=
      framesAt_of_resolved resolved_too
    rw [here, there]
    exact same
  | error fault =>
    cases resolved_too : (scopes.under other).resolve address leaf with
    | error cause =>
      have here : (source.under one).framesAt unit lines row address = [⟨leaf, none⟩] :=
        framesAt_of_fault resolved
      have there : (source.under other).framesAt unit lines row address = [⟨leaf, none⟩] :=
        framesAt_of_fault resolved_too
      rw [here, there]
      exact .cons ⟨rfl, .none⟩ .nil
    | ok second =>
      obtain ⟨_, wrong, _⟩ := ScopeSource.resolve_under one resolved_too
      rw [resolved] at wrong
      cases wrong

theorem tellsLine_under (naming : Naming) :
    (source.under naming).TellsLine address slot unit lines row ↔
      source.TellsLine address slot unit lines row :=
  ⟨fun tells => ⟨tells.held, tells.governs, tells.lined⟩,
    fun tells => ⟨tells.held, tells.governs, tells.lined⟩⟩

theorem firstToTell_of_lookup {naming : Naming} {frames : List LogicalFrame}
    (found : (source.under naming).lookup address = .found frames) :
    ∃ slot unit lines row, source.FirstToTell address slot unit lines row ∧
      frames = (source.under naming).framesAt unit lines row address := by
  obtain ⟨slot, unit, lines, row, first, same⟩ := lookup_found found
  refine ⟨slot, unit, lines, row, ⟨(tellsLine_under naming).1 first.tells, ?_⟩, same⟩
  exact fun lower below unit lines row told =>
    first.lowest lower below unit lines row ((tellsLine_under naming).2 told)

theorem found_under {frames : List LogicalFrame} (found : (source.under one).lookup address = .found frames)
    (other : Naming) : ∃ frames, (source.under other).lookup address = .found frames := by
  obtain ⟨slot, unit, lines, row, first, _⟩ := firstToTell_of_lookup found
  exact lookup_found_iff.2 ⟨slot, unit, lines, row, (tellsLine_under other).2 first.tells⟩

/-- The same unit answers under both settings, for only its scopes are asked for names. -/
theorem lookup_under (source : NameSource) (one other : Naming) (address : UInt64) :
    SameLookup (SameFrame (source.Supplies address) one other) ((source.under one).lookup address)
      ((source.under other).lookup address) := by
  cases looked : (source.under one).lookup address with
  | notFound =>
    cases looked_too : (source.under other).lookup address with
    | notFound => exact .notFound
    | found second =>
      obtain ⟨_, wrong⟩ := found_under looked_too one
      rw [looked] at wrong
      cases wrong
  | found first =>
    obtain ⟨second, looked_too⟩ := found_under looked other
    rw [looked_too]
    obtain ⟨slot, unit, lines, row, answers, rfl⟩ := firstToTell_of_lookup looked
    obtain ⟨_, _, _, _, answers_too, rfl⟩ := firstToTell_of_lookup looked_too
    obtain ⟨rfl, rfl, rfl⟩ := answers.unique answers_too
    refine .found ((source.framesAt_under one other unit lines row address).imp fun _ _ => ?_)
    exact sameFrame_imp fun supplier supplies => ⟨slot, unit, lines, row, answers, supplies⟩

end NameSource

/-! Reports under two settings. -/

def ObjectFile.Supplies (object : ObjectFile) (address : UInt64) (supplier : Supplier) : Prop :=
  ∃ source : NameSource, Dwarf.Sections.ofObject? object = some source.sections ∧
    source.index = UnitIndex.build source.sections ∧ source.Supplies address supplier ∧
    source.names supplier.unit supplier.entry = .ok supplier.names

def ObjectFile.SameFunction (object : ObjectFile) (demanglers : Mangling.Demanglers) (address : UInt64)
    (shown stored : SymbolName) : Prop :=
  ∃ supplier, object.Supplies address supplier ∧
    Naming.Counterparts demanglers supplier.names shown stored

namespace FrameReport.SameButName

variable {strong weak : SymbolName → SymbolName → Prop} {first second : FrameReport}

theorem imp (step : ∀ shown stored, strong shown stored → weak shown stored)
    (same : SameButName strong first second) : SameButName weak first second :=
  ⟨same.address, same.module, same.resolution, NameSource.optionRel_imp step same.function⟩

theorem nameless (report : FrameReport) (none : report.function? = none) :
    SameButName strong report report :=
  ⟨rfl, rfl, rfl, none ▸ .none⟩

end FrameReport.SameButName

namespace Resolve

open FrameReport (SameButName)

variable {supplies : Supplier → Prop} {one other : Naming} {module : String} {address : Address}

theorem sameButName_reportOfFrame {first second : LogicalFrame}
    (same : SameFrame supplies one other first second) :
    SameButName (SameSupplier supplies one other) (reportOfFrame module address first)
      (reportOfFrame module address second) := by
  unfold reportOfFrame
  rw [same.location]
  cases second.location with
  | none => exact .nameless _ rfl
  | some location => exact ⟨rfl, rfl, rfl, same.function⟩

theorem sameButName_reportsOfFrames {first second : List LogicalFrame}
    (same : List.Forall₂ (SameFrame supplies one other) first second) :
    List.Forall₂ (SameButName (SameSupplier supplies one other)) (reportsOfFrames module address first)
      (reportsOfFrames module address second) := by
  cases same with
  | nil => exact .nil
  | cons innermost outer =>
    refine .cons (sameButName_reportOfFrame innermost) ?_
    rw [List.forall₂_map_left_iff, List.forall₂_map_right_iff]
    exact outer.imp fun _ _ => sameButName_reportOfFrame

theorem sameButName_reportsOfLookup {first second : Lookup}
    (same : NameSource.SameLookup (SameFrame supplies one other) first second) :
    List.Forall₂ (SameButName (SameSupplier supplies one other)) (reportsOfLookup module address first)
      (reportsOfLookup module address second) := by
  cases same with
  | notFound => exact .cons (.nameless _ rfl) .nil
  | found frames => exact sameButName_reportsOfFrames frames

theorem sourceOf?_eq (naming : Naming) (object : ObjectFile) :
    sourceOf? naming object = (Dwarf.Sections.ofObject? object).map fun sections =>
      ⟨Session.ofSections sections naming, object.declaredBase⟩ := by
  unfold sourceOf? Session.load
  cases Dwarf.Sections.ofObject? object <;> rfl

theorem sameFunction_of_sameSupplier {object : ObjectFile} {demanglers : Mangling.Demanglers}
    {sections : Dwarf.Sections} (present : Dwarf.Sections.ofObject? object = some sections)
    {target : UInt64} {shown stored : SymbolName}
    (same : SameSupplier
      (NameSource.Supplies ⟨sections, UnitIndex.build sections, ⟨true, demanglers⟩⟩ target)
      ⟨true, demanglers⟩ ⟨false, demanglers⟩ shown stored) :
    object.SameFunction demanglers target shown stored := by
  obtain ⟨supplier, supplies, chosen, kept⟩ := same
  refine ⟨supplier, ⟨_, present, rfl, supplies, ?_⟩, Naming.counterparts_of_choose chosen kept⟩
  obtain ⟨_, _, _, _, _, _, _, _, _, _, _, found⟩ := supplies
  exact NameSource.names_of_supplier found

theorem groupOf_demangle (object : ObjectFile) (demanglers : Mangling.Demanglers) (module : String)
    (loadBase address : Address) :
    List.Forall₂ (SameButName (object.SameFunction demanglers
        (address.offsetBy (normalizationDelta object.declaredBase loadBase)).value))
      (groupOf module loadBase (sourceOf? ⟨true, demanglers⟩ object) address)
      (groupOf module loadBase (sourceOf? ⟨false, demanglers⟩ object) address) := by
  rw [sourceOf?_eq, sourceOf?_eq]
  cases present : Dwarf.Sections.ofObject? object with
  | none => exact .cons (.nameless _ rfl) .nil
  | some sections =>
    let source : NameSource := ⟨sections, UnitIndex.build sections, ⟨true, demanglers⟩⟩
    have looked := source.lookup_under ⟨true, demanglers⟩ ⟨false, demanglers⟩
      (address.offsetBy (normalizationDelta object.declaredBase loadBase)).value
    refine (sameButName_reportsOfLookup looked).imp fun _ _ => .imp fun _ _ => ?_
    exact sameFunction_of_sameSupplier present

theorem sameButNames_scriptOf (object : ObjectFile) (demanglers : Mangling.Demanglers) (module : String)
    (loadBase : Address) (addresses : List Address) :
    List.Forall₂ (Part.SameButNames fun address => object.SameFunction demanglers
        (address.offsetBy (normalizationDelta object.declaredBase loadBase)).value)
      (scriptOf module loadBase (sourceOf? ⟨true, demanglers⟩ object) true addresses)
      (scriptOf module loadBase (sourceOf? ⟨false, demanglers⟩ object) true addresses) := by
  cases addresses with
  | nil => exact .nil
  | cons first rest =>
    refine .cons ⟨rfl, rfl, groupOf_demangle object demanglers module loadBase first⟩ ?_
    rw [List.forall₂_map_left_iff, List.forall₂_map_right_iff, List.forall₂_same]
    exact fun address _ => ⟨rfl, rfl, groupOf_demangle object demanglers module loadBase address⟩

theorem sameLanguage_reports {same : Address → SymbolName → SymbolName → Prop}
    (language : ∀ address shown stored, same address shown stored → shown.language = stored.language)
    {first second : Script} (related : List.Forall₂ (Part.SameButNames same) first second) :
    List.Forall₂ (SameButName fun shown stored => shown.language = stored.language)
      first.reports second.reports := by
  apply List.rel_flatMap related
  intro part other parts
  have lead : List.Forall₂ (SameButName fun shown stored => shown.language = stored.language)
      part.lead other.lead := by
    rw [parts.lead, List.forall₂_same]
    intro report _
    refine ⟨rfl, rfl, rfl, ?_⟩
    cases report.function? with
    | none => exact .none
    | some name => exact .some rfl
  exact List.rel_append lead (parts.answers.imp fun _ _ => .imp (language part.address))

/-- Runs with and without readable names go by two scripts that say the same, report for report, except
for the names of functions. A name has the same language in both. Both come from one entry, which names a
scope around the address, and differ only when its linkage name is rejected and its plain name is shown
instead. -/
theorem resolveObject_demangle (demanglers : Mangling.Demanglers) (options : Options) (object : ObjectFile)
    (name : String) (loadBase : Address) (addresses : List Address) :
    ∃ shown stored : Script,
      shown.map Part.address = addresses ∧
      List.Forall₂ (Part.SameButNames fun address => object.SameFunction demanglers
        (address.offsetBy (normalizationDelta object.declaredBase loadBase)).value) shown stored ∧
      List.Forall₂ (SameButName fun first second => first.language = second.language)
        shown.reports stored.reports ∧
      ∀ {σ : Type} (sink : Sink σ) (state : σ),
        let on := resolveObject demanglers { options with demangle := true } object name loadBase sink state
          addresses
        let off := resolveObject demanglers { options with demangle := false } object name loadBase sink state
          addresses
        on = sink.play ⟨state, 0, .more⟩ shown ∧ off = sink.play ⟨state, 0, .more⟩ stored ∧
          (sink.Accepting →
            on = ⟨sink.absorb state shown.reports, addresses.length, .more⟩ ∧
            off = ⟨sink.absorb state stored.reports, addresses.length, .more⟩) := by
  let script (demangle : Bool) : Script :=
    scriptOf name loadBase (sourceOf? ⟨demangle, demanglers⟩ object) true addresses
  have related := sameButNames_scriptOf object demanglers name loadBase addresses
  refine ⟨script true, script false, map_address_scriptOf _ _ _ _ _, related,
    sameLanguage_reports ?_ related, fun sink state => ?_⟩
  · rintro address _ _ ⟨_, _, names⟩
    exact names.language
  · have plays (demangle : Bool) : resolveObject demanglers { options with demangle := demangle } object name
        loadBase sink state addresses = sink.play ⟨state, 0, .more⟩ (script demangle) :=
      resolveObject_eq_play demanglers { options with demangle := demangle } object name loadBase sink state
        addresses
    refine ⟨plays true, plays false, fun accepting => ?_⟩
    rw [plays, plays, Sink.play_of_accepting accepting, Sink.play_of_accepting accepting, length_scriptOf,
      length_scriptOf, Nat.zero_add]
    exact ⟨rfl, rfl⟩

def unreadable : ObjectFile :=
  ObjectFile.ofSections 8 none
    [(".debug_info", [0x28, 0, 0, 0, 4, 0, 0, 0, 0, 0, 8,
        1, 0, 0, 0, 0, 0, 0x10, 0, 0, 0, 0, 0, 0, 0, 1, 0, 0,
        2, 0x66, 0, 0x3f, 0x66, 0, 0, 0x10, 0, 0, 0, 0, 0, 0, 0x80, 0]),
      (".debug_abbrev", [1, 0x11, 1, 0x10, 0x17, 0x11, 1, 0x12, 6, 0, 0,
        2, 0x2e, 0, 3, 8, 0x6e, 8, 0x11, 1, 0x12, 0xb, 0, 0, 0]),
      (".debug_line", [
        0x33, 0, 0, 0, 4, 0, 0x1b, 0, 0, 0, 1, 1, 1, 0xfb, 0xe, 0xd, 0, 1, 1, 1, 1, 0, 0, 0, 1, 0, 0, 1,
        0, 0x61, 0x2e, 0x63, 0, 0, 0, 0, 0,
        0, 9, 2, 0, 0x10, 0, 0, 0, 0, 0, 0, 1, 2, 0x80, 2, 0, 1, 1])]

example :
    (resolveObject ⟨fun _ => none, fun _ => none⟩ { Options.default with demangle := true } unreadable "app"
        Address.zero Sink.collector [] [⟨0x1010⟩]).state =
      [⟨⟨0x1010⟩, some "app", .resolved ⟨"a.c", 1, 0⟩ (some ⟨"f", none, .cpp⟩)⟩] := by
  cbv

example :
    (resolveObject ⟨fun _ => none, fun _ => none⟩ { Options.default with demangle := false } unreadable "app"
        Address.zero Sink.collector [] [⟨0x1010⟩]).state =
      [⟨⟨0x1010⟩, some "app", .resolved ⟨"a.c", 1, 0⟩ (some ⟨"?f", none, .cpp⟩)⟩] := by
  cbv

end Resolve

end Symbolizer
