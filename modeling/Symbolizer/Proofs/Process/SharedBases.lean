import Symbolizer.Proofs.Process.Governors

/-!
Modules that share a base. An address whose owner has the base of the module in front of it is resolved
against that module, also when its own is another one. Every address gets the reports of its own module
exactly when no two neighbours have owners that share a base and lie in different files.
-/

namespace Symbolizer.Process

/-- What the reports of an address depend on of its module. -/
def fileOf (module : Module) : String × Address :=
  (module.path, module.base)

def SameFile (modules : ModuleMap) (first second : Address) : Prop :=
  ∀ own ∈ modules.owner? first, ∀ other ∈ modules.owner? second,
    own.base = other.base → own.path = other.path

variable {outside : Surroundings} {options : Options} {modules : ModuleMap}

theorem answersUnder_congr {module other : Option Module} (same : module.map fileOf = other.map fileOf)
    (address : Address) :
    answersUnder outside options address module = answersUnder outside options address other := by
  cases module with
  | none =>
    cases other with
    | none => rfl
    | some other => cases same
  | some module =>
    cases other with
    | none => cases same
    | some other =>
      have files : fileOf module = fileOf other := Option.some.inj same
      have path : module.path = other.path := congrArg Prod.fst files
      have base : module.base = other.base := congrArg Prod.snd files
      rw [answersUnder, answersUnder, path, base]

theorem answersUnder_module {address : Address} {module : Option Module} {report : FrameReport}
    (member : report ∈ answersUnder outside options address module) :
    report.module = module.map Module.path := by
  cases module with
  | none => rw [List.mem_singleton.1 member, Option.map_none]
  | some module =>
    rw [answersUnder_some] at member
    exact Resolve.groupOf_module member

theorem governor?_base (previous : Option Module) (address : Address) :
    (governor? modules previous address).map Module.base = (modules.owner? address).map Module.base := by
  cases found : modules.owner? address with
  | none => simp [governor?, found]
  | some own =>
    cases previous with
    | none => simp [governor?, found]
    | some module =>
      by_cases same : own.base = module.base
      · simp [governor?, found, same]
      · simp [governor?, found, same]

theorem governed_base {previous : Option Module} {addresses : List Address}
    {pair : Address × Option Module} (member : pair ∈ governed modules previous addresses) :
    pair.2.map Module.base = (modules.owner? pair.1).map Module.base := by
  induction addresses generalizing previous with
  | nil => cases member
  | cons address rest ih =>
    rcases List.mem_cons.1 member with here | later
    · rw [here]
      exact governor?_base previous address
    · exact ih later

/-- The reports of an address tell the file of its governor from that of its owner. -/
theorem answersUnder_eq_iff {previous : Option Module} {addresses : List Address}
    {pair : Address × Option Module} (member : pair ∈ governed modules previous addresses) :
    answersUnder outside options pair.1 pair.2 =
        answersUnder outside options pair.1 (modules.owner? pair.1) ↔
      pair.2.map fileOf = (modules.owner? pair.1).map fileOf := by
  constructor
  · intro same
    have answers := answers_answersUnder outside options pair.1 pair.2
    obtain ⟨report, found⟩ : ∃ report, report ∈ answersUnder outside options pair.1 pair.2 := by
      cases reports : answersUnder outside options pair.1 pair.2 with
      | nil =>
        have first := answers.first
        rw [reports] at first
        cases first
      | cons report rest => exact ⟨report, List.mem_cons_self⟩
    have path : pair.2.map Module.path = (modules.owner? pair.1).map Module.path :=
      (answersUnder_module found).symm.trans (answersUnder_module (same ▸ found))
    have base := governed_base member
    cases governor : pair.2 with
    | none =>
      rw [governor] at path
      rw [Option.map_eq_none_iff.1 path.symm]
    | some module =>
      rw [governor] at path base
      obtain ⟨own, owned, same_path⟩ := Option.map_eq_some_iff.1 path.symm
      rw [owned] at base ⊢
      have same_base : module.base = own.base := Option.some.inj base
      exact congrArg some (Prod.ext same_path.symm same_base)
  · intro same
    exact answersUnder_congr same pair.1

theorem governor?_file_iff {previous : Option Module} {front : Address}
    (own_file : previous.map fileOf = (modules.owner? front).map fileOf) (address : Address) :
    (governor? modules previous address).map fileOf = (modules.owner? address).map fileOf ↔
      SameFile modules front address := by
  cases found : modules.owner? address with
  | none =>
    simp [governor?, found, SameFile]
  | some own =>
    cases before : modules.owner? front with
    | none =>
      rw [before] at own_file
      rw [Option.map_eq_none_iff.1 own_file]
      simp [governor?, found, SameFile, before]
    | some prior =>
      rw [before] at own_file
      obtain ⟨module, rfl, files⟩ := Option.map_eq_some_iff.1 own_file
      have path : module.path = prior.path := congrArg Prod.fst files
      have base : module.base = prior.base := congrArg Prod.snd files
      by_cases same : own.base = module.base
      · have shared : prior.base = own.base := by rw [same, base]
        simp [governor?, found, SameFile, before, same, shared, fileOf, path]
      · have apart : prior.base ≠ own.base := by
          rw [← base]
          exact fun equal => same equal.symm
        simp [governor?, found, SameFile, before, same, apart]

theorem governed_file_iff {previous : Option Module} {front : Address}
    (own_file : previous.map fileOf = (modules.owner? front).map fileOf) (rest : List Address) :
    (∀ pair ∈ governed modules previous rest,
        pair.2.map fileOf = (modules.owner? pair.1).map fileOf) ↔
      (front :: rest).IsChain (SameFile modules) := by
  induction rest generalizing previous front with
  | nil => simp [governed]
  | cons address rest ih =>
    rw [governed_cons, List.forall_mem_cons, List.isChain_cons_cons, governor?_file_iff own_file address]
    refine and_congr_right fun same => ?_
    exact ih ((governor?_file_iff own_file address).2 same)

theorem governed_none_file_iff (addresses : List Address) :
    (∀ pair ∈ governed modules none addresses,
        pair.2.map fileOf = (modules.owner? pair.1).map fileOf) ↔
      addresses.IsChain (SameFile modules) := by
  cases addresses with
  | nil => simp [governed]
  | cons address rest =>
    rw [governed_cons, List.forall_mem_cons, governor?_none, governed_file_iff rfl]
    simp

/-- Each address has the reports of the module that governs it, and these are the reports of its own
module for all addresses alike exactly when neighbours with the same base are found in the same file. -/
theorem resolveProcess_governed (outside : Surroundings) (options : Options) (modules : ModuleMap)
    {sink : Sink σ} (accepting : sink.Accepting) (state : σ) (addresses : List Address) :
    resolveProcess outside options modules sink state addresses =
        ⟨sink.absorb state (scriptUnder outside options [] (governed modules none addresses)).reports,
          addresses.length, .more⟩ ∧
      (governed modules none addresses).map Prod.fst = addresses ∧
      (∀ pair ∈ governed modules none addresses,
        ∀ report ∈ answersUnder outside options pair.1 pair.2,
          report.module = pair.2.map Module.path) ∧
      ((∀ pair ∈ governed modules none addresses,
          answersUnder outside options pair.1 pair.2 =
            answersUnder outside options pair.1 (modules.owner? pair.1)) ↔
        addresses.IsChain (SameFile modules)) := by
  refine ⟨resolveProcess_of_accepting accepting state addresses, map_fst_governed modules none addresses,
    fun pair _ report found => answersUnder_module found, ?_⟩
  rw [← governed_none_file_iff]
  exact forall₂_congr fun pair member => answersUnder_eq_iff member

def nestedModules : Modules :=
  [⟨"a.exe", Address.zero, ⟨0x2000⟩⟩, ⟨"b.dll", Address.zero, ⟨0x3000⟩⟩]

theorem resolveProcess_governed_nestedModules :
    Sink.collector.Accepting ∧
      resolveProcess noFiles Options.default nestedModules Sink.collector [] [⟨0x1800⟩, ⟨0x2800⟩] =
        ⟨(scriptUnder noFiles Options.default []
            (governed nestedModules none [⟨0x1800⟩, ⟨0x2800⟩])).reports, 2, .more⟩ ∧
      ((∀ pair ∈ governed nestedModules none [⟨0x1800⟩, ⟨0x2800⟩],
          answersUnder noFiles Options.default pair.1 pair.2 =
            answersUnder noFiles Options.default pair.1 (nestedModules.owner? pair.1)) ↔
        [⟨0x1800⟩, ⟨0x2800⟩].IsChain (SameFile nestedModules)) := by
  obtain ⟨run, _, _, own⟩ := resolveProcess_governed noFiles Options.default nestedModules
    Sink.collector_accepting [] [⟨0x1800⟩, ⟨0x2800⟩]
  rw [Sink.absorb_collector, List.nil_append] at run
  exact ⟨Sink.collector_accepting, run, own⟩

/-- The second address is owned by the second module and reported with the first. -/
theorem resolveProcess_not_owner_nestedModules :
    nestedModules.owner? ⟨0x2800⟩ = some ⟨"b.dll", Address.zero, ⟨0x3000⟩⟩ ∧
      answersUnder noFiles Options.default ⟨0x2800⟩ (nestedModules.owner? ⟨0x2800⟩) =
        [⟨⟨0x2800⟩, some "b.dll", .noDebugSymbols⟩] ∧
      (resolveProcess noFiles Options.default nestedModules Sink.collector []
          [⟨0x1800⟩, ⟨0x2800⟩]).state =
        [⟨⟨0x1800⟩, some "a.exe", .noDebugSymbols⟩, ⟨⟨0x2800⟩, some "a.exe", .noDebugSymbols⟩] := by
  refine ⟨by decide, by decide, ?_⟩
  rw [resolveProcess_eq_play]
  decide

end Symbolizer.Process
