import Symbolizer.Proofs.Session.Reuse
import Symbolizer.Proofs.Sink.Script
import Symbolizer.Resolve

/-!
The reports of a run in groups, one for each address. A group depends on its address alone: not on
the addresses around it and not on the units that the session has read for them. It is never empty,
its first report carries the address, the others carry none, and a report that nothing was found
stands alone. So a run plays a script that is there before the sink is: the groups in the order of
their addresses, and the announcement in front of the first.
-/

namespace Symbolizer.Resolve

def Coherent (source : Option DebugSource) : Prop :=
  ∀ held ∈ source, held.session.Coherent

def groupOf (module : String) (loadBase : Address) (source : Option DebugSource) (address : Address) :
    List FrameReport :=
  match source with
  | some ⟨session, declaredBase⟩ =>
    let delta := normalizationDelta declaredBase loadBase
    reportsOfLookup module address (session.lookup (address.offsetBy delta).value)
  | none => [⟨address, some module, .noDebugSymbols⟩]

/-- The groups of some addresses, the announcement with the first of them. -/
def scriptOf (module : String) (loadBase : Address) (source : Option DebugSource) (announce : Bool) :
    List Address → Script
  | [] => []
  | address :: rest =>
    ⟨address, if announce then announcement module loadBase else [],
        groupOf module loadBase source address⟩ ::
      rest.map fun address => ⟨address, [], groupOf module loadBase source address⟩

variable {module : String} {loadBase : Address} {source : Option DebugSource}

theorem coherent_sourceOf? (naming : Naming) (object : ObjectFile) :
    Coherent (sourceOf? naming object) := by
  unfold sourceOf?
  split
  next session loaded =>
    intro held member
    cases member
    exact Session.coherent_of_load loaded
  next =>
    intro held member
    cases member

theorem coherent_sourceOfFile? (outside : Surroundings) (options : Options) (path : String) :
    Coherent (sourceOfFile? outside options path) := by
  intro held member
  simp only [sourceOfFile?, Option.bind_eq_bind, Option.mem_def, Option.bind_eq_some_iff] at member
  obtain ⟨primary, _, found⟩ := member
  split at found
  next source own =>
    cases found
    exact coherent_sourceOf? _ primary.object held own
  next =>
    obtain ⟨satellite, _, linked⟩ := Option.bind_eq_some_iff.1 found
    exact coherent_sourceOf? _ satellite.object held linked

theorem reportsAt_reports (coherent : Coherent source) (address : Address) :
    (reportsAt module loadBase source address).1 = groupOf module loadBase source address := by
  cases source with
  | none => rfl
  | some held =>
    have session := coherent held rfl
    simp only [reportsAt, groupOf, Session.serve_lookup session]

theorem reportsAt_coherent (coherent : Coherent source) (address : Address) :
    Coherent (reportsAt module loadBase source address).2 := by
  cases source with
  | none => exact coherent
  | some held =>
    intro next member
    cases member
    exact Session.serve_coherent (coherent held rfl) _

theorem reportsAt_groupOf (coherent : Coherent source) (address : Address) :
    groupOf module loadBase (reportsAt module loadBase source address).2 =
      groupOf module loadBase source := by
  cases source with
  | none => rfl
  | some held =>
    funext other
    simp only [reportsAt, groupOf, Session.serve_source (coherent held rfl)]

/-- Handing the session on from address to address makes no difference to what is offered. -/
theorem emit_reportsAt (sink : Sink σ) (coherent : Coherent source) (progress : Progress σ)
    (addresses : List Address) :
    emit sink (reportsAt module loadBase) source progress addresses =
      emit sink (fun _ address => (groupOf module loadBase source address, ())) () progress addresses := by
  induction addresses generalizing source progress with
  | nil => rfl
  | cons address rest ih =>
    simp only [emit, reportsAt_reports coherent]
    split
    next state flow =>
      rw [ih (reportsAt_coherent coherent address), reportsAt_groupOf coherent]
    next => rfl

theorem emit_eq_play (sink : Sink σ) (group : Address → List FrameReport) (state : σ) (processed : Nat)
    (addresses : List Address) :
    emit sink (fun _ address => (group address, ())) () ⟨state, processed, .more⟩ addresses =
      sink.play ⟨state, processed, .more⟩ (addresses.map fun address => ⟨address, [], group address⟩) := by
  induction addresses generalizing state processed with
  | nil => rfl
  | cons address rest ih =>
    simp only [emit, List.map_cons, Sink.play, Part.reports, List.nil_append]
    rcases sink.feed state (group address) with ⟨next, flow⟩
    cases flow with
    | more => exact ih next (processed + 1)
    | stop => rfl

/-- What a run offers is settled before the sink is asked. -/
theorem run_eq_play (sink : Sink σ) (coherent : Coherent source) (announce : Bool) (state : σ)
    {addresses : List Address} (some_address : addresses ≠ []) :
    run sink source module loadBase announce state addresses =
      sink.play ⟨state, 0, .more⟩ (scriptOf module loadBase source announce addresses) := by
  obtain ⟨address, rest, rfl⟩ := List.exists_cons_of_ne_nil some_address
  simp only [run, scriptOf, Sink.play, Part.reports, Sink.feed_append]
  rcases sink.feed state (if announce then announcement module loadBase else []) with ⟨next, flow⟩
  cases flow with
  | stop => rfl
  | more =>
    simp only [emit_reportsAt sink coherent, emit_eq_play, List.map_cons, Sink.play, Part.reports,
      List.nil_append]

theorem resolveObject_eq_play (demanglers : Mangling.Demanglers) (options : Options)
    (object : ObjectFile) (name : String) (loadBase : Address) (sink : Sink σ) (state : σ)
    (addresses : List Address) :
    resolveObject demanglers options object name loadBase sink state addresses =
      sink.play ⟨state, 0, .more⟩
        (scriptOf name loadBase (sourceOf? (namingOf demanglers options) object) true addresses) := by
  cases addresses with
  | nil => rfl
  | cons address rest => exact run_eq_play sink (coherent_sourceOf? _ object) true state (by simp)

theorem resolveFile_eq_play (outside : Surroundings) (options : Options) (path : String)
    (loadBase : Address) (announce : Bool) (sink : Sink σ) (state : σ) (addresses : List Address) :
    resolveFile outside options path loadBase announce sink state addresses =
      sink.play ⟨state, 0, .more⟩
        (scriptOf path loadBase (sourceOfFile? outside options path) announce addresses) := by
  cases addresses with
  | nil => rfl
  | cons address rest =>
    exact run_eq_play sink (coherent_sourceOfFile? outside options path) announce state (by simp)

theorem reports_scriptOf (announce : Bool) {addresses : List Address} (some_address : addresses ≠ []) :
    (scriptOf module loadBase source announce addresses).reports =
      (if announce then announcement module loadBase else []) ++
        addresses.flatMap (groupOf module loadBase source) := by
  cases addresses with
  | nil => exact absurd rfl some_address
  | cons address rest =>
    simp only [scriptOf, Script.reports, List.flatMap_cons, List.flatMap_map, Part.reports,
      List.nil_append, List.append_assoc]

theorem map_address_scriptOf (module : String) (loadBase : Address) (source : Option DebugSource)
    (announce : Bool) (addresses : List Address) :
    (scriptOf module loadBase source announce addresses).map Part.address = addresses := by
  cases addresses with
  | nil => rfl
  | cons address rest => simp [scriptOf, Function.comp_def]

theorem length_scriptOf (announce : Bool) (addresses : List Address) :
    (scriptOf module loadBase source announce addresses).length = addresses.length := by
  cases addresses <;> simp [scriptOf]

theorem play_scriptOf {sink : Sink σ} (accepting : sink.Accepting) (announce : Bool) (state : σ)
    {addresses : List Address} (some_address : addresses ≠ []) :
    sink.play ⟨state, 0, .more⟩ (scriptOf module loadBase source announce addresses) =
      ⟨sink.absorb state ((if announce then announcement module loadBase else []) ++
        addresses.flatMap (groupOf module loadBase source)), addresses.length, .more⟩ := by
  rw [Sink.play_of_accepting accepting, reports_scriptOf announce some_address, length_scriptOf,
    Nat.zero_add]

/-! The shape of one group. -/

structure Answers (address : Address) (reports : List FrameReport) : Prop where
  first : reports.head?.map FrameReport.address = some address
  later : ∀ report ∈ reports.tail, report.address = Address.zero
  alone : ∀ report ∈ reports,
    report.resolution = .notFound ∨ report.resolution = .noDebugSymbols → reports = [report]
  unannounced : ∀ report ∈ reports, report.resolution ≠ .baseAddress

theorem answers_singleton (address : Address) (module : Option String) (resolution : Resolution)
    (unannounced : resolution ≠ .baseAddress) : Answers address [⟨address, module, resolution⟩] := by
  refine ⟨rfl, by simp, ?_, ?_⟩
  · intro report member _
    rw [List.mem_singleton.1 member]
  · intro report member
    rw [List.mem_singleton.1 member]
    exact unannounced

theorem reportOfFrame_resolution (module : String) (address : Address) (frame : LogicalFrame) :
    (reportOfFrame module address frame).resolution = .noSourceFile ∨
      ∃ location function, (reportOfFrame module address frame).resolution =
        .resolved location function := by
  unfold reportOfFrame
  cases frame.location with
  | none => exact .inl rfl
  | some location => exact .inr ⟨location, frame.function, rfl⟩

theorem mem_reportsOfFrames {address : Address} {frames : List LogicalFrame} {report : FrameReport}
    (member : report ∈ reportsOfFrames module address frames) :
    ∃ held frame, report = reportOfFrame module held frame := by
  cases frames with
  | nil => cases member
  | cons frame outer =>
    rcases List.mem_cons.1 member with same | later
    · exact ⟨address, frame, same⟩
    · obtain ⟨other, _, same⟩ := List.mem_map.1 later
      exact ⟨Address.zero, other, same.symm⟩

theorem ordinary_of_mem {address : Address} {frames : List LogicalFrame} {report : FrameReport}
    (member : report ∈ reportsOfFrames module address frames) :
    report.resolution ≠ .notFound ∧ report.resolution ≠ .noDebugSymbols ∧
      report.resolution ≠ .baseAddress := by
  obtain ⟨held, frame, rfl⟩ := mem_reportsOfFrames member
  rcases reportOfFrame_resolution module held frame with kind | ⟨location, function, kind⟩ <;>
    simp [kind]

theorem answers_reportsOfFrames (module : String) (address : Address) (frames : List LogicalFrame)
    (nonempty : frames ≠ []) : Answers address (reportsOfFrames module address frames) := by
  refine ⟨?_, ?_, ?_, fun report member => (ordinary_of_mem member).2.2⟩
  · cases frames with
    | nil => exact absurd rfl nonempty
    | cons frame outer => rfl
  · intro report member
    cases frames with
    | nil => cases member
    | cons frame outer =>
      obtain ⟨other, _, same⟩ := List.mem_map.1 member
      rw [← same]
      rfl
  · intro report member wrong
    obtain ⟨found, present, _⟩ := ordinary_of_mem member
    exact absurd wrong (not_or.2 ⟨found, present⟩)

theorem expandChain_ne_nil (leaf : Option SourceLocation) (scopes : List Scope) :
    expandChain leaf scopes ≠ [] := by
  cases scopes with
  | nil => simp [expandChain]
  | cons scope outer =>
    simp only [expandChain]
    split <;> simp

theorem resolve_ne_nil {scopes : ScopeSource} {target : UInt64} {leaf : Option SourceLocation}
    {frames : List LogicalFrame} (resolved : scopes.resolve target leaf = .ok frames) : frames ≠ [] := by
  simp only [ScopeSource.resolve, bind, Except.bind, pure, Except.pure] at resolved
  split at resolved
  · cases resolved
  · split at resolved
    · cases resolved
    · cases resolved
      exact expandChain_ne_nil _ _

theorem framesAt_ne_nil (names : NameSource) (unit : Dwarf.CompilationUnit) (lines : LineTable)
    (row : LineRow) (address : UInt64) : names.framesAt unit lines row address ≠ [] := by
  unfold NameSource.framesAt
  dsimp only
  split
  next frames resolved => exact resolve_ne_nil resolved
  next => simp

theorem lookup_ne_nil {names : NameSource} {address : UInt64} {frames : List LogicalFrame}
    (found : names.lookup address = .found frames) : frames ≠ [] := by
  unfold NameSource.lookup at found
  split at found
  next answer some_answer =>
    cases found
    obtain ⟨slot, _, here⟩ := List.exists_of_findSome?_eq_some some_answer
    simp only [NameSource.framesIn?, Option.bind_eq_bind, Option.bind_eq_some_iff, Option.pure_def,
      Option.some.injEq] at here
    obtain ⟨data, _, lines, _, row, _, _, _, same⟩ := here
    exact same ▸ framesAt_ne_nil _ _ _ _ _
  next => cases found

theorem answers_groupOf (module : String) (loadBase : Address) (source : Option DebugSource)
    (address : Address) : Answers address (groupOf module loadBase source address) := by
  cases source with
  | none => exact answers_singleton _ _ _ (by simp)
  | some held =>
    simp only [groupOf]
    cases found : held.session.lookup (address.offsetBy (normalizationDelta held.declaredBase loadBase)).value with
    | notFound => exact answers_singleton _ _ _ (by simp)
    | found frames => exact answers_reportsOfFrames _ _ _ (lookup_ne_nil found)

theorem groupOf_module {address : Address} {report : FrameReport}
    (member : report ∈ groupOf module loadBase source address) : report.module = some module := by
  cases source with
  | none =>
    rw [List.mem_singleton.1 member]
  | some held =>
    simp only [groupOf, reportsOfLookup] at member
    split at member
    next => rw [List.mem_singleton.1 member]
    next =>
      obtain ⟨_, _, rfl⟩ := mem_reportsOfFrames member
      rfl

/-! Whole runs. -/

theorem announcement_eq (module : String) (loadBase : Address) :
    announcement module loadBase =
      if loadBase = Address.zero then [] else [⟨loadBase, some module, .baseAddress⟩] := by
  unfold announcement
  by_cases base : loadBase = Address.zero
  · rw [if_pos base, base]
    rfl
  · have nonzero : loadBase.isZero = false := by
      rw [Address.isZero, beq_eq_false_iff_ne]
      intro same
      exact base (congrArg Address.mk same)
    rw [if_neg base, nonzero]
    rfl

def announced (module : String) (loadBase : Address) (addresses : List Address) : List FrameReport :=
  if addresses = [] ∨ loadBase = Address.zero then [] else [⟨loadBase, some module, .baseAddress⟩]

theorem resolveObject_of_accepting (demanglers : Mangling.Demanglers) (options : Options)
    (object : ObjectFile) (name : String) (loadBase : Address) {sink : Sink σ}
    (accepting : sink.Accepting) (state : σ) (addresses : List Address) :
    resolveObject demanglers options object name loadBase sink state addresses =
      ⟨sink.absorb state (announced name loadBase addresses ++
        addresses.flatMap (groupOf name loadBase (sourceOf? (namingOf demanglers options) object))),
        addresses.length, .more⟩ := by
  by_cases none : addresses = []
  · subst none
    rfl
  · rw [resolveObject_eq_play, play_scriptOf accepting true state none, if_pos rfl, announcement_eq,
      announced]
    simp only [none, false_or]

/-- A run for a sink that takes everything: the base once and first, then a group for each address,
in their order, the same that the address has when it is resolved alone. -/
theorem resolveObject_eq_groups (demanglers : Mangling.Demanglers) (options : Options)
    (object : ObjectFile) (name : String) (loadBase : Address) (sink : Sink σ)
    (accepting : sink.Accepting) (state : σ) (addresses : List Address) :
    ∃ group : Address → List FrameReport,
      (∀ address, Answers address (group address)) ∧
      (∀ address, (resolveObject demanglers options object name loadBase Sink.collector [] [address]).state =
        (if loadBase = Address.zero then [] else [⟨loadBase, some name, .baseAddress⟩]) ++ group address) ∧
      resolveObject demanglers options object name loadBase sink state addresses =
        ⟨sink.absorb state
          ((if addresses = [] ∨ loadBase = Address.zero then []
            else [⟨loadBase, some name, .baseAddress⟩]) ++ addresses.flatMap group),
          addresses.length, .more⟩ := by
  refine ⟨groupOf name loadBase (sourceOf? (namingOf demanglers options) object),
    answers_groupOf name loadBase _, fun address => ?_,
    resolveObject_of_accepting demanglers options object name loadBase accepting state addresses⟩
  rw [resolveObject_of_accepting _ _ _ _ _ Sink.collector_accepting, Sink.absorb_collector, announced]
  simp only [List.cons_ne_nil, false_or, List.flatMap_singleton, List.nil_append]

def inlinedCall : ObjectFile :=
  ObjectFile.ofSections 8 (some 0x1000)
    [(".debug_info", [0x34, 0, 0, 0, 4, 0, 0, 0, 0, 0, 8,
        1, 0, 0, 0, 0, 0, 0x10, 0, 0, 0, 0, 0, 0, 0, 1, 0, 0,
        2, 0x66, 0, 0, 0x10, 0, 0, 0, 0, 0, 0, 0x80,
        3, 0x67, 0, 0x20, 0x10, 0, 0, 0, 0, 0, 0, 0x10, 1, 7, 0, 0]),
      (".debug_abbrev", [1, 0x11, 1, 0x10, 0x17, 0x11, 1, 0x12, 6, 0, 0,
        2, 0x2e, 1, 3, 8, 0x11, 1, 0x12, 0xb, 0, 0,
        3, 0x1d, 0, 3, 8, 0x11, 1, 0x12, 0xb, 0x58, 0xb, 0x59, 0xb, 0, 0, 0]),
      (".debug_line", [
        0x33, 0, 0, 0, 4, 0, 0x1b, 0, 0, 0, 1, 1, 1, 0xfb, 0xe, 0xd, 0, 1, 1, 1, 1, 0, 0, 0, 1, 0, 0, 1,
        0, 0x61, 0x2e, 0x63, 0, 0, 0, 0, 0,
        0, 9, 2, 0, 0x10, 0, 0, 0, 0, 0, 0, 1, 2, 0x80, 2, 0, 1, 1])]

/-- One address twice, and between them one that no unit knows. -/
theorem resolveObject_eq_groups_inlinedCall :
    Sink.collector.Accepting ∧
      ∃ group : Address → List FrameReport,
        (∀ address, Answers address (group address)) ∧
        (∀ address, (resolveObject ⟨fun _ => none, fun _ => none⟩ Options.default inlinedCall "app"
          ⟨0x7f0000000000⟩ Sink.collector [] [address]).state =
            ⟨⟨0x7f0000000000⟩, some "app", .baseAddress⟩ :: group address) ∧
        group ⟨0x7f0000000028⟩ =
          [⟨⟨0x7f0000000028⟩, some "app", .resolved ⟨"a.c", 1, 0⟩ (some ⟨"g", none, .c⟩)⟩,
            ⟨Address.zero, some "app", .resolved ⟨"a.c", 7, 0⟩ (some ⟨"f", none, .c⟩)⟩] ∧
        group Address.zero = [⟨Address.zero, some "app", .notFound⟩] ∧
        resolveObject ⟨fun _ => none, fun _ => none⟩ Options.default inlinedCall "app"
          ⟨0x7f0000000000⟩ Sink.collector [] [⟨0x7f0000000028⟩, Address.zero, ⟨0x7f0000000028⟩] =
            ⟨[⟨⟨0x7f0000000000⟩, some "app", .baseAddress⟩,
              ⟨⟨0x7f0000000028⟩, some "app", .resolved ⟨"a.c", 1, 0⟩ (some ⟨"g", none, .c⟩)⟩,
              ⟨Address.zero, some "app", .resolved ⟨"a.c", 7, 0⟩ (some ⟨"f", none, .c⟩)⟩,
              ⟨Address.zero, some "app", .notFound⟩,
              ⟨⟨0x7f0000000028⟩, some "app", .resolved ⟨"a.c", 1, 0⟩ (some ⟨"g", none, .c⟩)⟩,
              ⟨Address.zero, some "app", .resolved ⟨"a.c", 7, 0⟩ (some ⟨"f", none, .c⟩)⟩], 3, .more⟩ := by
  refine ⟨Sink.collector_accepting, ?_⟩
  obtain ⟨group, answers, alone, whole⟩ := resolveObject_eq_groups ⟨fun _ => none, fun _ => none⟩
    Options.default inlinedCall "app" ⟨0x7f0000000000⟩ Sink.collector Sink.collector_accepting []
    [⟨0x7f0000000028⟩, Address.zero, ⟨0x7f0000000028⟩]
  have single (address : Address) : (resolveObject ⟨fun _ => none, fun _ => none⟩ Options.default
      inlinedCall "app" ⟨0x7f0000000000⟩ Sink.collector [] [address]).state =
        ⟨⟨0x7f0000000000⟩, some "app", .baseAddress⟩ :: group address := by
    rw [alone address, if_neg (by decide), List.singleton_append]
  have known : group ⟨0x7f0000000028⟩ =
      [⟨⟨0x7f0000000028⟩, some "app", .resolved ⟨"a.c", 1, 0⟩ (some ⟨"g", none, .c⟩)⟩,
        ⟨Address.zero, some "app", .resolved ⟨"a.c", 7, 0⟩ (some ⟨"f", none, .c⟩)⟩] :=
    (List.cons.inj ((single _).symm.trans (by cbv))).2
  have unknown : group Address.zero = [⟨Address.zero, some "app", .notFound⟩] :=
    (List.cons.inj ((single _).symm.trans (by cbv))).2
  refine ⟨group, answers, single, known, unknown, ?_⟩
  rw [whole, Sink.absorb_collector, if_neg (by decide)]
  simp [known, unknown]

end Symbolizer.Resolve
