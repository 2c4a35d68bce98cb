import Symbolizer.Proofs.Inline.Suppliers
import Symbolizer.Proofs.UnitIndex.Owners

/-!
Names borrowed over links. Entries and the links between them make a graph, in which a link may go round in
circles, back to its own entry or into another unit. The search for a name looks at an entry, then over its
abstract origin, then over its specification, sixteen links deep: it always ends, it finds a name exactly
when an entry within reach carries one, and the name is that of the first such entry on its way.
-/

namespace Symbolizer

open Dwarf (CompilationUnit Entry Sections UnitHeader)

structure Die where
  unit : CompilationUnit
  entry : Entry

inductive LinkKind where
  | origin
  | specification
  deriving DecidableEq, Repr

def LinkKind.attribute : LinkKind → Nat
  | .origin => Dwarf.Name.abstractOrigin
  | .specification => Dwarf.Name.specification

/-- The origin comes before the specification. -/
instance : LT LinkKind := ⟨fun first second => first = .origin ∧ second = .specification⟩

namespace NameSource

def ofSections (sections : Sections) (naming : Naming) : NameSource :=
  ⟨sections, UnitIndex.build sections, naming⟩

def Reads (source : NameSource) (unit : CompilationUnit) : Prop :=
  ∃ header ∈ UnitHeader.all source.sections.info, CompilationUnit.read source.sections header = .ok unit

def nameAttributes : List Nat :=
  [Dwarf.Name.linkageName, Dwarf.Name.mipsLinkageName, Dwarf.Name.name]

def Carries (entry : Entry) : Prop :=
  ∃ attr ∈ entry.attributes, attr.name ∈ nameAttributes

/-- A link leads to an entry of the same unit, or to one of an indexed unit that holds its offset. -/
inductive Link (source : NameSource) (die : Die) (kind : LinkKind) : Die → Prop where
  | within {offset : Nat} {entry : Entry}
      (refers : die.entry.attribute? kind.attribute = .ok (some (.unitRef offset)))
      (stands : die.unit.entryAt offset = .ok entry) : Link source die kind ⟨die.unit, entry⟩
  | across {offset place : Nat} {indexed : UnitEntry} {header : UnitHeader} {unit : CompilationUnit}
      {entry : Entry} (refers : die.entry.attribute? kind.attribute = .ok (some (.infoRef offset)))
      (listed : indexed ∈ source.index.entries)
      (headed : UnitHeader.atOffset source.sections.info indexed.offset = .ok header)
      (holds : header.local? offset = some place)
      (reads : CompilationUnit.read source.sections header = .ok unit)
      (stands : unit.entryAt place = .ok entry) : Link source die kind ⟨unit, entry⟩

inductive Leads (source : NameSource) : Die → List LinkKind → Die → Prop where
  | here (die : Die) : Leads source die [] die
  | along {die next last : Die} {kind : LinkKind} {path : List LinkKind} (link : source.Link die kind next)
      (rest : Leads source next path last) : Leads source die (kind :: path) last

/-- An entry that decodes without a fault: its attributes and, as far as they are asked for, the texts of
its names and the entries that its links refer to. An entry with a name of its own is not asked for the
latter. -/
structure Decodes (source : NameSource) (die : Die) : Prop where
  whole : ∃ stop, die.entry.stop = .ok stop
  texts : ∀ name ∈ nameAttributes, ∀ value, die.entry.attribute? name = .ok (some value) →
    ∃ bytes, die.unit.stringOf source.sections value = .ok bytes
  within : ¬Carries die.entry → ∀ (kind : LinkKind) offset,
    die.entry.attribute? kind.attribute = .ok (some (.unitRef offset)) →
      ∃ entry, die.unit.entryAt offset = .ok entry
  across : ¬Carries die.entry → ∀ (kind : LinkKind) offset,
    die.entry.attribute? kind.attribute = .ok (some (.infoRef offset)) →
      ∀ indexed ∈ source.index.entries, ∀ header place,
        UnitHeader.atOffset source.sections.info indexed.offset = .ok header →
        header.local? offset = some place →
          ∃ unit entry, CompilationUnit.read source.sections header = .ok unit ∧
            unit.entryAt place = .ok entry

/-- The first path in depth-first order to an entry with a name: a path comes before those that go on from
it, and before those that part from it where it takes the origin. -/
structure FirstNamed (source : NameSource) (links : Nat) (start : Die) (path : List LinkKind) (die : Die) :
    Prop where
  short : path.length ≤ links
  leads : source.Leads start path die
  carries : Carries die.entry
  first : ∀ earlier other, earlier.length ≤ links → earlier < path → source.Leads start earlier other →
    ¬Carries other.entry

variable {source : NameSource} {die next start : Die} {kind : LinkKind} {links : Nat}

/-! Names of one entry. -/

theorem attribute?_eq {entry : Entry} {name : Nat} {found : Option Dwarf.Value}
    (read : entry.attribute? name = .ok found) :
    found.isSome ↔ ∃ attr ∈ entry.attributes, attr.name = name := by
  unfold Entry.attribute? at read
  split at read
  next attr first =>
    cases read
    have member := List.mem_of_find?_eq_some first
    have named : attr.name = name := by simpa using List.find?_some first
    exact ⟨fun _ => ⟨attr, member, named⟩, fun _ => rfl⟩
  next missing =>
    have none : found = none := by
      split at read
      · cases read
        rfl
      · cases read
    subst none
    simp only [List.find?_eq_none, beq_iff_eq] at missing
    constructor
    · intro wrong
      cases wrong
    · rintro ⟨attr, member, named⟩
      exact absurd named (missing attr member)

theorem text?_eq {unit : CompilationUnit} {entry : Entry} {name : Nat} {found : Option String}
    (read : source.text? unit entry name = .ok found) :
    found.isSome ↔ ∃ attr ∈ entry.attributes, attr.name = name := by
  obtain ⟨value, held, read⟩ := bind_eq_ok.1 read
  rw [← attribute?_eq (mapDwarf_eq_ok.1 held)]
  cases value with
  | none =>
    cases read
    exact Iff.rfl
  | some value =>
    obtain ⟨bytes, _, read⟩ := bind_eq_ok.1 read
    cases read
    exact ⟨fun _ => rfl, fun _ => rfl⟩

theorem carries_iff {entry : Entry} :
    Carries entry ↔ (∃ attr ∈ entry.attributes, attr.name = Dwarf.Name.linkageName) ∨
      (∃ attr ∈ entry.attributes, attr.name = Dwarf.Name.mipsLinkageName) ∨
      ∃ attr ∈ entry.attributes, attr.name = Dwarf.Name.name := by
  simp only [Carries, nameAttributes, List.mem_cons, List.not_mem_nil, or_false, and_or_left, exists_or]

theorem named_iff {names : Naming.Names} (read : source.names die.unit die.entry = .ok names) :
    names ≠ ⟨none, none, none⟩ ↔ Carries die.entry := by
  obtain ⟨linkage, first, read⟩ := bind_eq_ok.1 read
  rw [carries_iff, ← text?_eq first]
  cases linkage with
  | some raw =>
    obtain ⟨_, skipped, read⟩ := bind_eq_ok.1 read
    obtain ⟨plain, _, read⟩ := bind_eq_ok.1 read
    cases skipped
    cases read
    simp
  | none =>
    obtain ⟨mips, second, read⟩ := bind_eq_ok.1 read
    obtain ⟨plain, third, read⟩ := bind_eq_ok.1 read
    cases read
    rw [← text?_eq second, ← text?_eq third]
    cases mips <;> cases plain <;> simp

theorem attribute?_of_decodes (decodes : source.Decodes die) (name : Nat) :
    ∃ found, die.entry.attribute? name = .ok found := by
  obtain ⟨stop, whole⟩ := decodes.whole
  unfold Entry.attribute?
  split
  next attr _ => exact ⟨some attr.value, rfl⟩
  next => exact ⟨none, by rw [whole]⟩

theorem text?_of_decodes (decodes : source.Decodes die) (name : Nat) (listed : name ∈ nameAttributes) :
    ∃ found, source.text? die.unit die.entry name = .ok found := by
  obtain ⟨value, held⟩ := attribute?_of_decodes decodes name
  have asked : attribute? die.entry name = .ok value := mapDwarf_eq_ok.2 held
  cases value with
  | none => exact ⟨none, bind_eq_ok.2 ⟨none, asked, rfl⟩⟩
  | some value =>
    obtain ⟨bytes, spelled⟩ := decodes.texts name listed value held
    exact ⟨some (Text.Utf8.toText bytes), bind_eq_ok.2 ⟨some value, asked,
      bind_eq_ok.2 ⟨bytes, mapDwarf_eq_ok.2 spelled, rfl⟩⟩⟩

theorem names_of_decodes (decodes : source.Decodes die) :
    ∃ names, source.names die.unit die.entry = .ok names := by
  obtain ⟨linkage, first⟩ := text?_of_decodes decodes Dwarf.Name.linkageName (by decide)
  obtain ⟨mips, second⟩ := text?_of_decodes decodes Dwarf.Name.mipsLinkageName (by decide)
  obtain ⟨plain, third⟩ := text?_of_decodes decodes Dwarf.Name.name (by decide)
  unfold names
  rw [first, second, third]
  cases linkage <;> exact ⟨_, rfl⟩

/-! Links as they are followed. -/

theorem header_of_listed (built : source.index = UnitIndex.build source.sections) {indexed : UnitEntry}
    {header : UnitHeader} (listed : indexed ∈ source.index.entries)
    (headed : UnitHeader.atOffset source.sections.info indexed.offset = .ok header) :
    header ∈ UnitHeader.all source.sections.info ∧ indexed = UnitIndex.entryOf source.sections header := by
  rw [built, UnitIndex.entries_build] at listed
  obtain ⟨own, member, rfl⟩ := List.mem_map.1 listed
  have stands := UnitHeader.atOffset_of_mem_all member
  rw [UnitIndex.entryOf, stands] at headed
  cases headed
  exact ⟨member, rfl⟩

theorem foreign?_of_holds (built : source.index = UnitIndex.build source.sections)
    {own other : CompilationUnit} {header : UnitHeader} {offset place : Nat} (reads_own : source.Reads own)
    (member : header ∈ UnitHeader.all source.sections.info) (holds : header.local? offset = some place)
    (reads : CompilationUnit.read source.sections header = .ok other) :
    source.foreign? own offset =
      (mapDwarf "following origin" (other.entryAt place)).map fun entry => some (other, entry) := by
  have held : (header.local? offset).isSome := by rw [holds]; rfl
  obtain ⟨own_header, own_member, own_read⟩ := reads_own
  have own_headed := CompilationUnit.header_of_read own_read
  unfold foreign?
  cases here : own.header.local? offset with
  | some within =>
    have own_held : (own_header.local? offset).isSome := by rw [← own_headed, here]; rfl
    have same := UnitIndex.eq_of_holds own_member member own_held held
    subst same
    rw [reads] at own_read
    rw [own_headed, holds] at here
    cases own_read
    cases here
    rfl
  | none =>
    have chosen := UnitIndex.unitAtOrBefore?_of_holds member held
    have headed := UnitHeader.atOffset_of_mem_all member
    simp only [built, chosen, UnitIndex.entryOf, headed, mapDwarf, bind, Except.bind, holds, reads]
    rfl

theorem foreign?_of_not_holds (built : source.index = UnitIndex.build source.sections)
    {own : CompilationUnit} {offset : Nat} (reads_own : source.Reads own)
    (outside : ∀ header ∈ UnitHeader.all source.sections.info, header.local? offset = none) :
    source.foreign? own offset = .ok none := by
  obtain ⟨own_header, own_member, own_read⟩ := reads_own
  have not_here : own.header.local? offset = none := by
    rw [CompilationUnit.header_of_read own_read]
    exact outside own_header own_member
  unfold foreign?
  simp only [not_here]
  cases chosen : source.index.unitAtOrBefore? offset with
  | none => rfl
  | some owner =>
    have listed := UnitIndex.mem_of_unitAtOrBefore? chosen
    rw [built, UnitIndex.entries_build] at listed
    obtain ⟨header, member, rfl⟩ := List.mem_map.1 listed
    have headed := UnitHeader.atOffset_of_mem_all member
    simp only [UnitIndex.entryOf, headed, mapDwarf, bind, Except.bind, outside header member]
    rfl

theorem follow?_of_link (built : source.index = UnitIndex.build source.sections)
    (reads : source.Reads die.unit) (link : source.Link die kind next) :
    source.follow? die.unit die.entry kind.attribute = .ok (some (next.unit, next.entry)) := by
  cases link with
  | within refers stands =>
    simp only [follow?, attribute?, refers, mapDwarf, bind, Except.bind, stands]
    rfl
  | across refers listed headed holds reads_other stands =>
    have member := (header_of_listed built listed headed).1
    have found := foreign?_of_holds built reads member holds reads_other
    rw [stands] at found
    simp only [follow?, attribute?, refers, mapDwarf, bind, Except.bind, found]
    rfl

theorem reads_of_link (built : source.index = UnitIndex.build source.sections)
    (reads : source.Reads die.unit) (link : source.Link die kind next) : source.Reads next.unit := by
  cases link with
  | within => exact reads
  | across refers listed headed holds reads_other stands =>
    exact ⟨_, (header_of_listed built listed headed).1, reads_other⟩

theorem follow?_of_decodes (built : source.index = UnitIndex.build source.sections)
    (reads : source.Reads die.unit) (decodes : source.Decodes die) (nameless : ¬Carries die.entry)
    (kind : LinkKind) :
    (∃ next, source.Link die kind next ∧
        source.follow? die.unit die.entry kind.attribute = .ok (some (next.unit, next.entry))) ∨
      (∀ next, ¬source.Link die kind next) ∧
        source.follow? die.unit die.entry kind.attribute = .ok none := by
  have follows {next : Die} (link : source.Link die kind next) := follow?_of_link built reads link
  -- A link that is there is what following gives, so it is enough that following does not fail.
  suffices total : ∃ found, source.follow? die.unit die.entry kind.attribute = .ok found ∧
      (found = none ∨ ∃ next, source.Link die kind next) by
    obtain ⟨found, followed, rfl | ⟨next, link⟩⟩ := total
    · refine .inr ⟨fun next link => ?_, followed⟩
      rw [follows link] at followed
      cases followed
    · exact .inl ⟨next, link, follows link⟩
  obtain ⟨value, held⟩ := attribute?_of_decodes decodes kind.attribute
  have asked : attribute? die.entry kind.attribute = .ok value := mapDwarf_eq_ok.2 held
  simp only [follow?, asked, bind, Except.bind]
  split
  next offset =>
    obtain ⟨entry, stands⟩ := decodes.within nameless kind offset held
    exact ⟨some (die.unit, entry), by rw [stands]; rfl, .inr ⟨_, .within held stands⟩⟩
  next offset =>
    by_cases held_somewhere : ∃ header ∈ UnitHeader.all source.sections.info,
        (header.local? offset).isSome
    · obtain ⟨header, member, holds⟩ := held_somewhere
      obtain ⟨place, holds⟩ := Option.isSome_iff_exists.1 holds
      have listed : UnitIndex.entryOf source.sections header ∈ source.index.entries := by
        rw [built, UnitIndex.entries_build]
        exact List.mem_map_of_mem member
      have headed := UnitHeader.atOffset_of_mem_all member
      obtain ⟨unit, entry, reads_other, stands⟩ :=
        decodes.across nameless kind offset held _ listed header place headed holds
      refine ⟨some (unit, entry), ?_, .inr ⟨_, .across held listed headed holds reads_other stands⟩⟩
      rw [foreign?_of_holds built reads member holds reads_other, stands]
      rfl
    · refine ⟨none, foreign?_of_not_holds built reads fun header member => ?_, .inl rfl⟩
      rw [← Option.not_isSome_iff_eq_none]
      exact fun holds => held_somewhere ⟨header, member, holds⟩
  next => exact ⟨none, rfl, .inl rfl⟩

/-! One step of the search. -/

theorem leads_cons {last : Die} {path : List LinkKind} (leads : source.Leads die (kind :: path) last) :
    ∃ next, source.Link die kind next ∧ source.Leads next path last := by
  cases leads with
  | along link rest => exact ⟨_, link, rest⟩

theorem not_lt_origin (kind : LinkKind) : ¬kind < .origin := by
  rintro ⟨_, wrong⟩
  cases wrong

theorem eq_origin_of_lt {kind other : LinkKind} (before : kind < other) :
    kind = .origin ∧ other = .specification := before

def SilentOver (source : NameSource) (links : Nat) (die : Die) (kind : LinkKind) : Prop :=
  ∀ path last, path.length < links → source.Leads die (kind :: path) last → ¬Carries last.entry

theorem firstNamed_self (carries : Carries die.entry) : source.FirstNamed links die [] die :=
  ⟨Nat.zero_le _, .here die, carries, fun earlier _ _ before => absurd before (List.not_lt_nil earlier)⟩

/-- The first name behind a link is the first of all, when nothing in front of it has one. -/
theorem firstNamed_over {last : Die} {path : List LinkKind} (nameless : ¬Carries die.entry)
    (only : ∀ other, source.Link die kind other → other = next)
    (link : source.Link die kind next) (first : source.FirstNamed links next path last)
    (silent : ∀ other < kind, source.SilentOver (links + 1) die other) :
    source.FirstNamed (links + 1) die (kind :: path) last := by
  refine ⟨Nat.succ_le_succ first.short, .along link first.leads, first.carries, ?_⟩
  intro earlier other short before leads
  cases earlier with
  | nil =>
    cases leads
    exact nameless
  | cons step rest =>
    have shorter : rest.length ≤ links := Nat.le_of_succ_le_succ short
    rcases List.cons_lt_cons_iff.1 before with lower | ⟨rfl, sooner⟩
    · exact silent step lower rest other (Nat.lt_succ_of_le shorter) leads
    · obtain ⟨behind, link_too, leads⟩ := leads_cons leads
      rw [only behind link_too] at leads
      exact first.first rest other shorter sooner leads

/-- What a search finds: the entry at the end of the first path, or nothing without such a path. -/
inductive Finds (source : NameSource) (links : Nat) (start : Die) : Option Supplier → Prop where
  | nothing (silent : ∀ path last, path.length ≤ links → source.Leads start path last →
      ¬Carries last.entry) : Finds source links start none
  | first {supplier : Supplier} {path : List LinkKind}
      (first : source.FirstNamed links start path ⟨supplier.unit, supplier.entry⟩) :
      Finds source links start (some supplier)

inductive Lends (source : NameSource) (links : Nat) (die : Die) (kind : LinkKind) :
    Option Supplier → Prop where
  | nothing (silent : source.SilentOver links die kind) : Lends source links die kind none
  | first {supplier : Supplier} {path : List LinkKind}
      (first : (∀ other < kind, source.SilentOver links die other) →
        source.FirstNamed links die (kind :: path) ⟨supplier.unit, supplier.entry⟩) :
      Lends source links die kind (some supplier)

variable {supplierAt : CompilationUnit → Entry → Except Fault (Option Supplier)}

theorem lender?_of_follow {unit : CompilationUnit} {entry : Entry} {code : Nat}
    (followed : source.follow? unit entry code = .ok (some (next.unit, next.entry))) :
    source.lender? supplierAt unit entry code = supplierAt next.unit next.entry := by
  unfold lender?
  rw [followed]
  rfl

theorem lender?_of_nowhere {unit : CompilationUnit} {entry : Entry} {code : Nat}
    (followed : source.follow? unit entry code = .ok none) :
    source.lender? supplierAt unit entry code = .ok none := by
  unfold lender?
  rw [followed]
  rfl

/-- One entry: its own names, else what the origin lends, else what the specification lends. -/
theorem selfOrLender?_finds (decodes : source.Decodes die)
    (lends : ¬Carries die.entry → ∀ kind : LinkKind, ∃ found,
      source.lender? supplierAt die.unit die.entry kind.attribute = .ok found ∧
        source.Lends links die kind found) :
    ∃ found, source.selfOrLender? supplierAt die.unit die.entry = .ok found ∧
      source.Finds links die found := by
  obtain ⟨names, read⟩ := names_of_decodes decodes
  unfold selfOrLender?
  by_cases carries : Carries die.entry
  · have named := (named_iff read).2 carries
    simp only [read, bind, Except.bind, dif_pos named]
    exact ⟨_, rfl, .first (firstNamed_self carries)⟩
  · have nameless : ¬names ≠ ⟨none, none, none⟩ := fun named => carries ((named_iff read).1 named)
    obtain ⟨origin, asked, from_origin⟩ := lends carries .origin
    obtain ⟨specification, asked_too, from_specification⟩ := lends carries .specification
    simp only [LinkKind.attribute] at asked asked_too
    simp only [read, bind, Except.bind, dif_neg nameless, asked]
    cases from_origin with
    | first first => exact ⟨_, rfl, .first (first fun other before => absurd before (not_lt_origin other))⟩
    | nothing silent =>
      refine ⟨specification, asked_too, ?_⟩
      cases from_specification with
      | first first =>
        refine .first (first fun other before => ?_)
        rw [(eq_origin_of_lt before).1]
        exact silent
      | nothing silent_too =>
        refine .nothing fun path last short leads => ?_
        cases path with
        | nil =>
          cases leads
          exact carries
        | cons kind rest =>
          have shorter : rest.length < links := Nat.lt_of_succ_le short
          cases kind with
          | origin => exact silent rest last shorter leads
          | specification => exact silent_too rest last shorter leads

theorem supplierWithin_finds (built : source.index = UnitIndex.build source.sections)
    (reads : source.Reads die.unit)
    (decodes : ∀ path last, path.length ≤ links → source.Leads die path last → source.Decodes last) :
    ∃ found, source.supplierWithin links die.unit die.entry = .ok found ∧
      source.Finds links die found := by
  induction links generalizing die with
  | zero =>
    -- The links of the last entry are still followed, and what they lead to is not looked at.
    have own := decodes [] die (Nat.le_refl _) (.here die)
    rw [supplierWithin]
    refine selfOrLender?_finds own fun nameless kind =>
      ⟨none, ?_, .nothing fun path last short => absurd short (Nat.not_lt_zero path.length)⟩
    rcases follow?_of_decodes built reads own nameless kind with ⟨next, _, followed⟩ | ⟨_, followed⟩
    · exact lender?_of_follow followed
    · exact lender?_of_nowhere followed
  | succ links ih =>
    have own := decodes [] die (Nat.zero_le _) (.here die)
    rw [supplierWithin]
    refine selfOrLender?_finds own fun nameless kind => ?_
    rcases follow?_of_decodes built reads own nameless kind with ⟨next, link, followed⟩ | ⟨none, followed⟩
    · -- One entry behind each link, so paths over it and paths from what it leads to are the same.
      have only : ∀ other, source.Link die kind other → other = next := by
        intro other link_too
        have followed_too := follow?_of_link built reads link_too
        rw [followed] at followed_too
        cases other
        cases followed_too
        rfl
      obtain ⟨found, searched, finds⟩ := ih (reads_of_link built reads link) fun path last short leads =>
        decodes (kind :: path) last (Nat.succ_le_succ short) (.along link leads)
      refine ⟨found, (lender?_of_follow followed).trans searched, ?_⟩
      cases finds with
      | nothing silent =>
        refine .nothing fun path last short leads => ?_
        obtain ⟨behind, link_too, leads⟩ := leads_cons leads
        rw [only behind link_too] at leads
        exact silent path last (Nat.le_of_lt_succ short) leads
      | first first => exact .first fun silent => firstNamed_over nameless only link first silent
    · refine ⟨.none, lender?_of_nowhere followed, .nothing fun path last short leads => ?_⟩
      obtain ⟨behind, link, _⟩ := leads_cons leads
      exact absurd link (none behind)

/-! The name itself. -/

theorem finds_isSome_iff {found : Option Supplier} (finds : source.Finds links die found) :
    found.isSome ↔
      ∃ path last, path.length ≤ links ∧ source.Leads die path last ∧ Carries last.entry := by
  cases finds with
  | nothing silent =>
    constructor
    · intro wrong
      cases wrong
    · rintro ⟨path, last, short, leads, carries⟩
      exact absurd carries (silent path last short leads)
  | first first => exact ⟨fun _ => ⟨_, _, first.short, first.leads, first.carries⟩, fun _ => rfl⟩

theorem nameOf_isSome (naming : Naming) (found : Option Supplier) :
    (nameOf naming found).isSome ↔ found.isSome := by
  cases found with
  | none => exact Iff.rfl
  | some supplier =>
    obtain ⟨name, chosen⟩ := nameOf_supplier naming supplier
    have named : nameOf naming (some supplier) = some name := chosen
    rw [named]
    exact Iff.rfl

theorem ownOrBorrowed?_of_carries
    {nameAt : CompilationUnit → Entry → Except Fault (Option SymbolName)} {names : Naming.Names}
    (read : source.names die.unit die.entry = .ok names) (carries : Carries die.entry) :
    source.ownOrBorrowed? nameAt die.unit die.entry = .ok (source.naming.choose names) := by
  have named := (named_iff read).2 carries
  unfold ownOrBorrowed?
  simp only [read, bind, Except.bind]
  cases chosen : source.naming.choose names with
  | none => exact absurd ((source.naming.choose_eq_none_iff names).1 chosen) named
  | some name => rfl

theorem nameWithin_of_carries {names : Naming.Names} (read : source.names die.unit die.entry = .ok names)
    (carries : Carries die.entry) (links : Nat) :
    source.nameWithin links die.unit die.entry = .ok (source.naming.choose names) := by
  cases links with
  | zero => exact ownOrBorrowed?_of_carries read carries
  | succ links => exact ownOrBorrowed?_of_carries read carries

/-- In every graph of entries that decodes, from every entry of a unit: the search for a name ends. It finds
one exactly when an entry that carries a name is at most sixteen links away, and then that of the first such
entry in depth-first order, the origin before the specification. Wherever the search comes to an entry with
a name of its own it stays there, even when the links of the entry cannot be followed. -/
theorem functionName?_depthFirst (sections : Sections) (naming : Naming) (start : Die)
    (reads : (ofSections sections naming).Reads start.unit)
    (decodes : ∀ path die, path.length ≤ 16 → (ofSections sections naming).Leads start path die →
      (ofSections sections naming).Decodes die) :
    let source := ofSections sections naming
    (∃ found, source.functionName? start.unit start.entry = .ok found ∧
      (found.isSome ↔ ∃ path die, path.length ≤ 16 ∧ source.Leads start path die ∧ Carries die.entry) ∧
      ∀ name ∈ found, ∃ path die names, source.FirstNamed 16 start path die ∧
        source.names die.unit die.entry = .ok names ∧ naming.choose names = some name) ∧
    ∀ (die : Die) names, source.names die.unit die.entry = .ok names → Carries die.entry →
      ∀ links, source.nameWithin links die.unit die.entry = .ok (naming.choose names) := by
  intro source
  refine ⟨?_, fun die names read carries links => nameWithin_of_carries read carries links⟩
  obtain ⟨found, searched, finds⟩ :
      ∃ found, source.supplier? start.unit start.entry = .ok found ∧ source.Finds 16 start found :=
    supplierWithin_finds rfl reads decodes
  have named : source.functionName? start.unit start.entry = .ok (nameOf naming found) := by
    have made : (source.under naming).functionName? start.unit start.entry = _ :=
      functionName?_under source naming start.unit start.entry
    rw [searched] at made
    exact made
  refine ⟨nameOf naming found, named, (nameOf_isSome naming found).trans (finds_isSome_iff finds), ?_⟩
  intro name chosen
  cases finds with
  | nothing => cases chosen
  | @first supplier path first =>
    exact ⟨path, ⟨supplier.unit, supplier.entry⟩, supplier.names, first, names_of_supplier searched, chosen⟩

/-- Two units. The entry of the first is its own origin and has its specification in the second, where an
entry has a name and its origin back in the first. -/
def circle : Sections where
  info := [0x0f, 0, 0, 0, 4, 0, 0, 0, 0, 0, 1, 1, 2, 12, 31, 0, 0, 0, 0,
    0x10, 0, 0, 0, 4, 0, 0, 0, 0, 0, 1, 1, 3, 0x66, 0, 12, 0, 0, 0, 0]
  abbreviations := [1, 0x11, 1, 0, 0, 2, 0x2e, 0, 0x31, 0x11, 0x47, 0x10, 0, 0,
    3, 0x2e, 0, 3, 8, 0x31, 0x10, 0, 0, 0]
  line := []
  str := []
  lineStr := []
  strOffsets := []
  addr := []
  ranges := []
  rnglists := []

def circleNaming : Naming := ⟨false, ⟨fun _ => none, fun _ => none⟩⟩

abbrev circleSource : NameSource := ofSections circle circleNaming

def circleUnit (offset : Nat) (entries : Bytes) : CompilationUnit where
  header := ⟨offset, ⟨.dwarf32, 4, 1⟩, 0, 11, entries⟩
  abbreviations := [⟨1, 0x11, true, []⟩, ⟨2, 0x2e, false, [⟨0x31, 0x11, none⟩, ⟨0x47, 0x10, none⟩]⟩,
    ⟨3, 0x2e, false, [⟨3, 8, none⟩, ⟨0x31, 0x10, none⟩]⟩]
  bases := ⟨0, 0, 0⟩
  lowPc := 0
  compDir := none
  lineHeader := none

def circleFirst : Die where
  unit := circleUnit 0 [1, 2, 12, 31, 0, 0, 0, 0]
  entry := ⟨12, 0x2e, false, [⟨0x31, .unitRef 12⟩, ⟨0x47, .infoRef 31⟩], .ok ⟨18, [0]⟩⟩

def circleSecond : Die where
  unit := circleUnit 19 [1, 3, 0x66, 0, 12, 0, 0, 0, 0]
  entry := ⟨12, 0x2e, false, [⟨3, .text [0x66]⟩, ⟨0x31, .infoRef 12⟩], .ok ⟨19, [0]⟩⟩

theorem circle_reads : circleSource.Reads circleFirst.unit :=
  ⟨circleFirst.unit.header, List.mem_cons_self, rfl⟩

theorem circle_follows (kind : LinkKind) :
    circleSource.follow? circleFirst.unit circleFirst.entry kind.attribute =
        .ok (match kind with
          | .origin => some (circleFirst.unit, circleFirst.entry)
          | .specification => some (circleSecond.unit, circleSecond.entry)) ∧
      circleSource.follow? circleSecond.unit circleSecond.entry kind.attribute =
        .ok (match kind with
          | .origin => some (circleFirst.unit, circleFirst.entry)
          | .specification => none) := by
  cases kind
  · constructor
    · cbv
    · cbv
  · constructor
    · cbv
    · cbv

theorem circle_closed {die last : Die} {path : List LinkKind}
    (inside : die = circleFirst ∨ die = circleSecond)
    (leads : circleSource.Leads die path last) : last = circleFirst ∨ last = circleSecond := by
  induction leads with
  | here => exact inside
  | @along die next last kind path link rest ih =>
    apply ih
    rcases inside with rfl | rfl
    · have followed := follow?_of_link rfl circle_reads link
      rw [(circle_follows kind).1] at followed
      cases kind
      · exact .inl (by cases next; cases followed; rfl)
      · exact .inr (by cases next; cases followed; rfl)
    · have reads : circleSource.Reads circleSecond.unit :=
        ⟨circleSecond.unit.header, List.mem_cons_of_mem _ List.mem_cons_self, rfl⟩
      have followed := follow?_of_link rfl reads link
      rw [(circle_follows kind).2] at followed
      cases kind
      · exact .inl (by cases next; cases followed; rfl)
      · cases followed

theorem circle_decodes {die : Die} (inside : die = circleFirst ∨ die = circleSecond) :
    circleSource.Decodes die := by
  rcases inside with rfl | rfl
  · refine ⟨⟨_, rfl⟩, ?_, ?_, ?_⟩
    · intro name listed value held
      simp only [nameAttributes, List.mem_cons, List.not_mem_nil, or_false] at listed
      rcases listed with rfl | rfl | rfl <;> cases held
    · intro _ kind offset refers
      cases kind <;> cases refers
      exact ⟨_, rfl⟩
    · intro _ kind offset refers indexed listed header place headed holds
      have entries : circleSource.index.entries = [⟨0, none⟩, ⟨19, none⟩] := rfl
      rw [entries] at listed
      simp only [List.mem_cons, List.not_mem_nil, or_false] at listed
      cases kind <;> cases refers
      rcases listed with rfl | rfl <;> cases headed <;> cases holds
      exact ⟨_, _, rfl, rfl⟩
  · refine ⟨⟨_, rfl⟩, ?_, ?_, ?_⟩
    · intro name listed value held
      simp only [nameAttributes, List.mem_cons, List.not_mem_nil, or_false] at listed
      rcases listed with rfl | rfl | rfl <;> cases held
      exact ⟨_, rfl⟩
    · intro nameless
      exact absurd ⟨_, List.mem_cons_self, by decide⟩ nameless
    · intro nameless
      exact absurd ⟨_, List.mem_cons_self, by decide⟩ nameless

/-- Around the circle as often as the links allow, and over the specification at the last but one. -/
theorem functionName?_depthFirst_circle :
    circleSource.Reads circleFirst.unit ∧
      (∀ path die, path.length ≤ 16 → circleSource.Leads circleFirst path die →
        circleSource.Decodes die) ∧
      circleSource.functionName? circleFirst.unit circleFirst.entry =
        .ok (some ⟨"f", none, .c⟩) ∧
      ∃ path, circleSource.FirstNamed 16 circleFirst path circleSecond := by
  have decodes : ∀ path die, path.length ≤ 16 → circleSource.Leads circleFirst path die →
      circleSource.Decodes die :=
    fun _ _ _ leads => circle_decodes (circle_closed (.inl rfl) leads)
  obtain ⟨⟨found, named, _, first⟩, _⟩ :=
    functionName?_depthFirst circle circleNaming circleFirst circle_reads decodes
  have answer : circleSource.functionName? circleFirst.unit circleFirst.entry =
      .ok (some ⟨"f", none, .c⟩) := by
    cbv
  refine ⟨circle_reads, decodes, answer, ?_⟩
  rw [answer] at named
  cases named
  obtain ⟨path, die, _, before, _, _⟩ := first _ rfl
  rcases circle_closed (.inl rfl) before.leads with rfl | rfl
  · exact absurd before.carries (by simp only [Carries]; decide)
  · exact ⟨path, before⟩

end NameSource

end Symbolizer
