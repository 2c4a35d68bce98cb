import Symbolizer.Proofs.Process.Governors

/-!
Modules that have their bases for themselves. Then every address is governed by its own module, and the
reports of a list of addresses are those of each address on its own, behind the announcement of its
module if it is the first address of that module. How the modules take turns makes no difference.
-/

namespace Symbolizer.Process

def OwnBases (modules : ModuleMap) : Prop :=
  ∀ first second, ∀ own ∈ modules.owner? first, ∀ other ∈ modules.owner? second,
    own.base = other.base → own = other

/-- The announcement of the module of an address, unless one of the earlier addresses has the same. -/
def leadAt (modules : ModuleMap) (earlier : List Address) (address : Address) : List FrameReport :=
  match modules.owner? address with
  | none => []
  | some module =>
    if module.base = Address.zero ∨ ∃ other ∈ earlier, modules.owner? other = some module then []
    else [⟨module.base, some module.path, .baseAddress⟩]

def reportsAlone (outside : Surroundings) (options : Options) (modules : ModuleMap) :
    List Address → List Address → List FrameReport
  | _, [] => []
  | earlier, address :: rest =>
    leadAt modules earlier address ++
      (answersUnder outside options address (modules.owner? address) ++
        reportsAlone outside options modules (earlier ++ [address]) rest)

variable {outside : Surroundings} {options : Options} {modules : ModuleMap}

theorem reportsAlone_append (earlier front back : List Address) :
    reportsAlone outside options modules earlier (front ++ back) =
      reportsAlone outside options modules earlier front ++
        reportsAlone outside options modules (earlier ++ front) back := by
  induction front generalizing earlier with
  | nil => simp [reportsAlone]
  | cons address front ih =>
    rw [List.cons_append, reportsAlone, reportsAlone, ih, List.append_assoc earlier, List.singleton_append]
    simp only [List.append_assoc]

theorem owned_of_announcement (own_bases : OwnBases modules) {owned : Address} {module : Module}
    (owner : modules.owner? owned = some module) {earlier addresses : List Address}
    (member : ⟨module.base, some module.path, .baseAddress⟩ ∈
      reportsAlone outside options modules earlier addresses) :
    (∃ address ∈ addresses, modules.owner? address = some module) ∧
      ∀ other ∈ earlier, modules.owner? other ≠ some module := by
  induction addresses generalizing earlier with
  | nil => cases member
  | cons address rest ih =>
    rw [reportsAlone] at member
    rcases List.mem_append.1 member with lead | behind
    · unfold leadAt at lead
      cases found : modules.owner? address with
      | none =>
        rw [found] at lead
        cases lead
      | some other =>
        rw [found] at lead
        simp only at lead
        split at lead
        next => cases lead
        next fresh =>
          have base : module.base = other.base :=
            congrArg FrameReport.address (List.mem_singleton.1 lead)
          have same : module = other := own_bases owned address module owner other found base
          refine ⟨⟨address, List.mem_cons_self, same ▸ found⟩, fun earlier_one present own => ?_⟩
          exact fresh (.inr ⟨earlier_one, present, same ▸ own⟩)
    · rcases List.mem_append.1 behind with answers | later
      · have plain := (answers_answersUnder outside options address _).unannounced _ answers
        exact absurd rfl plain
      · obtain ⟨⟨found, inside, owns⟩, none_before⟩ := ih later
        refine ⟨⟨found, List.mem_cons_of_mem _ inside, owns⟩, fun other present => ?_⟩
        exact none_before other (List.mem_append_left _ present)

/-- A module that owns an address is announced in front of the first address it owns, and nowhere
else. -/
theorem announced_once (own_bases : OwnBases modules) {addresses : List Address} {address : Address}
    (member : address ∈ addresses) {module : Module} (owner : modules.owner? address = some module)
    (based : module.base ≠ Address.zero) :
    ∃ front first back, addresses = front ++ first :: back ∧ modules.owner? first = some module ∧
      (∀ other ∈ front, modules.owner? other ≠ some module) ∧
      ∃ rest, reportsAlone outside options modules [] addresses =
          reportsAlone outside options modules [] front ++
            ⟨module.base, some module.path, .baseAddress⟩ :: rest ∧
        ⟨module.base, some module.path, .baseAddress⟩ ∉
          reportsAlone outside options modules [] front ++ rest := by
  obtain ⟨first, found⟩ : ∃ first, addresses.find? (modules.owner? · = some module) = some first := by
    refine Option.isSome_iff_exists.1 (List.find?_isSome.2 ⟨address, member, ?_⟩)
    exact decide_eq_true owner
  obtain ⟨owns, front, back, split, others⟩ := List.find?_eq_some_iff_append.1 found
  have first_owner : modules.owner? first = some module := of_decide_eq_true owns
  have unowned : ∀ other ∈ front, modules.owner? other ≠ some module := by
    intro other present
    simpa using others other present
  have fresh : ¬(module.base = Address.zero ∨ ∃ other ∈ front, modules.owner? other = some module) := by
    rintro (zero | ⟨other, present, same⟩)
    · exact based zero
    · exact unowned other present same
  refine ⟨front, first, back, split, first_owner, unowned,
    answersUnder outside options first (some module) ++
      reportsAlone outside options modules (front ++ [first]) back, ?_, fun again => ?_⟩
  · rw [split, reportsAlone_append, List.nil_append, reportsAlone, leadAt, first_owner]
    simp only [if_neg fresh, List.singleton_append]
  · rcases List.mem_append.1 again with before | behind
    · obtain ⟨⟨other, present, same⟩, _⟩ := owned_of_announcement own_bases owner before
      exact unowned other present same
    · rcases List.mem_append.1 behind with answers | later
      · have plain := (answers_answersUnder outside options first _).unannounced _ answers
        exact plain rfl
      · obtain ⟨_, none_before⟩ := owned_of_announcement own_bases owner later
        exact none_before first (by simp) first_owner

/-! Every address is governed by its own module. -/

theorem governed_of_ownBases (own_bases : OwnBases modules) {previous : Option Module}
    (known : ∀ module ∈ previous, ∃ address, modules.owner? address = some module)
    (addresses : List Address) :
    governed modules previous addresses =
      addresses.map fun address => (address, modules.owner? address) := by
  induction addresses generalizing previous with
  | nil => rfl
  | cons address rest ih =>
    have own : governor? modules previous address = modules.owner? address := by
      cases found : modules.owner? address with
      | none => simp [governor?, found]
      | some module =>
        cases previous with
        | none => simp [governor?, found]
        | some prior =>
          obtain ⟨earlier, owned⟩ := known prior rfl
          by_cases base : module.base = prior.base
          · have same := own_bases address earlier module found prior owned base
            simp [governor?, found, same]
          · simp [governor?, found, base]
    have later : ∀ module ∈ modules.owner? address, ∃ other, modules.owner? other = some module :=
      fun module found => ⟨address, found⟩
    rw [governed_cons, own, ih later, List.map_cons]

def BasesOf (modules : ModuleMap) (earlier announced : List Address) : Prop :=
  ∀ base, base ∈ announced ↔ ∃ other ∈ earlier, ∃ own ∈ modules.owner? other, own.base = base

theorem reports_scriptUnder (own_bases : OwnBases modules) {earlier announced : List Address}
    (bases : BasesOf modules earlier announced) (addresses : List Address) :
    (scriptUnder outside options announced
        (addresses.map fun address => (address, modules.owner? address))).reports =
      reportsAlone outside options modules earlier addresses := by
  induction addresses generalizing earlier announced with
  | nil => rfl
  | cons address rest ih =>
    rw [List.map_cons, reportsAlone, leadAt]
    cases found : modules.owner? address with
    | none =>
      have later : BasesOf modules (earlier ++ [address]) announced := by
        intro base
        simp [bases base, found]
      rw [scriptUnder, Sink.reports_cons, ih later, Part.reports]
      rfl
    | some module =>
      have later : BasesOf modules (earlier ++ [address]) (module.base :: announced) := by
        intro base
        simp [bases base, found, or_comm, eq_comm]
      have known : announced.contains module.base = true ↔
          ∃ other ∈ earlier, modules.owner? other = some module := by
        rw [List.contains_iff_mem, bases]
        constructor
        · rintro ⟨other, present, own, owned, base⟩
          exact ⟨other, present, own_bases other address own owned module found base ▸ owned⟩
        · rintro ⟨other, present, owned⟩
          exact ⟨other, present, module, owned, rfl⟩
      have lead : (if announced.contains module.base then []
            else Resolve.announcement module.path module.base) =
          if module.base = Address.zero ∨ ∃ other ∈ earlier, modules.owner? other = some module then []
          else [⟨module.base, some module.path, .baseAddress⟩] := by
        rw [Resolve.announcement_eq]
        by_cases base : module.base = Address.zero
        · simp [base]
        · by_cases seen : ∃ other ∈ earlier, modules.owner? other = some module
          · rw [if_pos (known.2 seen), if_pos (.inr seen)]
          · rw [if_neg fun held => seen (known.1 held), if_neg base, if_neg (not_or.2 ⟨base, seen⟩)]
      rw [scriptUnder, Sink.reports_cons, ih later, Part.reports, lead, List.append_assoc]

/-- Handling neighbours at once does not show: the reports are those of the addresses one by one, and
each module is announced once, in front of all that is said of its addresses. -/
theorem resolveProcess_eq_alone (outside : Surroundings) (options : Options)
    (own_bases : OwnBases modules) {sink : Sink σ} (accepting : sink.Accepting) (state : σ)
    (addresses : List Address) :
    resolveProcess outside options modules sink state addresses =
        ⟨sink.absorb state (reportsAlone outside options modules [] addresses), addresses.length,
          .more⟩ ∧
      ∀ address ∈ addresses, ∀ module ∈ modules.owner? address, module.base ≠ Address.zero →
        ∃ front first back, addresses = front ++ first :: back ∧ modules.owner? first = some module ∧
          (∀ other ∈ front, modules.owner? other ≠ some module) ∧
          ∃ rest, reportsAlone outside options modules [] addresses =
              reportsAlone outside options modules [] front ++
                ⟨module.base, some module.path, .baseAddress⟩ :: rest ∧
            ⟨module.base, some module.path, .baseAddress⟩ ∉
              reportsAlone outside options modules [] front ++ rest := by
  refine ⟨?_, fun address member module owner based => announced_once own_bases member owner based⟩
  have unannounced : BasesOf modules [] [] := by
    intro base
    simp
  have ungoverned : ∀ module ∈ (none : Option Module), ∃ address, modules.owner? address = some module := by
    intro module wrong
    cases wrong
  rw [resolveProcess_of_accepting accepting, governed_of_ownBases own_bases ungoverned,
    reports_scriptUnder own_bases unannounced]

def apartModules : Modules :=
  [⟨"a.exe", ⟨0x1000⟩, ⟨0x2000⟩⟩, ⟨"b.dll", ⟨0x8000⟩, ⟨0x9000⟩⟩]

theorem resolveProcess_eq_alone_apartModules :
    OwnBases apartModules ∧ Sink.collector.Accepting ∧
      resolveProcess noFiles Options.default apartModules Sink.collector []
          [⟨0x1010⟩, ⟨0x8010⟩, ⟨0x5000⟩, ⟨0x1020⟩] =
        ⟨[⟨⟨0x1000⟩, some "a.exe", .baseAddress⟩, ⟨⟨0x1010⟩, some "a.exe", .noDebugSymbols⟩,
            ⟨⟨0x8000⟩, some "b.dll", .baseAddress⟩, ⟨⟨0x8010⟩, some "b.dll", .noDebugSymbols⟩,
            ⟨⟨0x5000⟩, none, .notFound⟩, ⟨⟨0x1020⟩, some "a.exe", .noDebugSymbols⟩], 4, .more⟩ := by
  have own_bases : OwnBases apartModules := by
    intro first second own owned other found base
    have listed := List.mem_of_find?_eq_some owned
    have present := List.mem_of_find?_eq_some found
    simp only [apartModules, List.mem_cons, List.not_mem_nil, or_false] at listed present
    rcases listed with rfl | rfl <;> rcases present with rfl | rfl
    · rfl
    · exact absurd base (by decide)
    · exact absurd base (by decide)
    · rfl
  obtain ⟨run, _⟩ := resolveProcess_eq_alone noFiles Options.default own_bases
    Sink.collector_accepting [] [⟨0x1010⟩, ⟨0x8010⟩, ⟨0x5000⟩, ⟨0x1020⟩]
  have reports : reportsAlone noFiles Options.default apartModules []
      [⟨0x1010⟩, ⟨0x8010⟩, ⟨0x5000⟩, ⟨0x1020⟩] =
      [⟨⟨0x1000⟩, some "a.exe", .baseAddress⟩, ⟨⟨0x1010⟩, some "a.exe", .noDebugSymbols⟩,
        ⟨⟨0x8000⟩, some "b.dll", .baseAddress⟩, ⟨⟨0x8010⟩, some "b.dll", .noDebugSymbols⟩,
        ⟨⟨0x5000⟩, none, .notFound⟩, ⟨⟨0x1020⟩, some "a.exe", .noDebugSymbols⟩] := by decide
  refine ⟨own_bases, Sink.collector_accepting, ?_⟩
  rw [run, Sink.absorb_collector, reports]
  rfl

end Symbolizer.Process
