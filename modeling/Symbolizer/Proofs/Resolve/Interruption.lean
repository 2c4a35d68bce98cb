import Symbolizer.Proofs.Process.Governors
import Symbolizer.Stack

/-!
Sinks that refuse. Every way to resolve addresses has the same reports ready for every sink, one part
for each address in their order. It offers them one by one up to the first refusal and nothing behind
it, and it counts an address when all of its own reports are offered and none is refused; an
announcement in front of them counts for nothing.
-/

namespace Symbolizer.Resolve

structure Answering (part : Part) : Prop where
  announced : ∀ report ∈ part.lead, report.resolution = .baseAddress
  answers : Answers part.address part.answers

/-- The reports of a run over addresses are there before its sink is, and the sink stops them. -/
def HeedsSinks (addresses : List Address) (run : ∀ {σ : Type}, Sink σ → σ → Progress σ) : Prop :=
  ∃ script : Script, script.map Part.address = addresses ∧ (∀ part ∈ script, Answering part) ∧
    (run Sink.collector []).state = script.reports ∧
    ∀ {σ : Type} (sink : Sink σ) (state : σ), ∃ trace,
      (run sink.recording (state, [])).state = ((run sink state).state, trace) ∧
      EndsAtStop trace script.reports ∧
      (run sink state).processed = Sink.served script trace

theorem Answering.nonempty {part : Part} (answering : Answering part) : part.answers ≠ [] := by
  intro none
  have first := answering.answers.first
  rw [none] at first
  cases first

theorem heedsSinks_of_plays {addresses : List Address} {run : ∀ {σ : Type}, Sink σ → σ → Progress σ}
    {script : Script} (addressed : script.map Part.address = addresses)
    (answering : ∀ part ∈ script, Answering part)
    (plays : ∀ {σ : Type} (sink : Sink σ) (state : σ),
      run sink state = sink.play ⟨state, 0, .more⟩ script) :
    HeedsSinks addresses run := by
  refine ⟨script, addressed, answering, ?_, fun sink state => ?_⟩
  · show (run Sink.collector []).state = script.reports
    rw [plays, Sink.state_play_collector]
  · refine ⟨sink.answersTo state script.reports, ?_, Sink.endsAtStop_answersTo sink state _, ?_⟩
    · show (run sink.recording (state, [])).state = ((run sink state).state, _)
      rw [plays, plays, Sink.play_recording, List.nil_append]
    · have nonempty : ∀ part ∈ script, part.answers ≠ [] :=
        fun part member => (answering part member).nonempty
      show (run sink state).processed = _
      rw [plays, Sink.play_processed sink state 0 nonempty, Nat.zero_add]

/-! The scripts of resolutions. -/

theorem announced_of_mem {module : String} {loadBase : Address} {report : FrameReport}
    (member : report ∈ announcement module loadBase) : report.resolution = .baseAddress := by
  unfold announcement at member
  split at member
  next => cases member
  next => rw [List.mem_singleton.1 member]

theorem answering_scriptOf {module : String} {loadBase : Address} {source : Option DebugSource}
    {announce : Bool} {addresses : List Address} {part : Part}
    (member : part ∈ scriptOf module loadBase source announce addresses) : Answering part := by
  cases addresses with
  | nil => cases member
  | cons address rest =>
    rcases List.mem_cons.1 member with first | later
    · rw [first]
      refine ⟨fun report lead => ?_, answers_groupOf module loadBase source address⟩
      cases announce with
      | false => cases lead
      | true => exact announced_of_mem lead
    · obtain ⟨other, _, rfl⟩ := List.mem_map.1 later
      exact ⟨nofun, answers_groupOf module loadBase source other⟩

theorem answering_scriptUnder {outside : Surroundings} {options : Options} {announced : List Address}
    {pairs : List (Address × Option Module)} {part : Part}
    (member : part ∈ Process.scriptUnder outside options announced pairs) : Answering part := by
  induction pairs generalizing announced with
  | nil => cases member
  | cons pair rest ih =>
    obtain ⟨address, module⟩ := pair
    cases module with
    | none =>
      rcases List.mem_cons.1 member with first | later
      · rw [first]
        exact ⟨nofun, Process.answers_answersUnder outside options address none⟩
      · exact ih later
    | some module =>
      rcases List.mem_cons.1 member with first | later
      · rw [first]
        refine ⟨fun report lead => ?_, Process.answers_answersUnder outside options address module⟩
        dsimp only at lead
        split at lead
        next => cases lead
        next => exact announced_of_mem lead
      · exact ih later

theorem heedsSinks_process (outside : Surroundings) (options : Options) (modules : ModuleMap)
    (addresses : List Address) :
    HeedsSinks addresses fun sink state =>
      resolveProcess outside options modules sink state addresses := by
  have addressed : (Process.scriptUnder outside options []
      (Process.governed modules none addresses)).map Part.address = addresses := by
    rw [Process.map_address_scriptUnder, Process.map_fst_governed]
  exact heedsSinks_of_plays addressed (fun _ member => answering_scriptUnder member)
    (fun sink state => Process.resolveProcess_eq_play outside options modules sink state addresses)

/-- Every way to resolve addresses stops at the first refusal, and counts the addresses in front of
it. -/
theorem resolutions_heed_sinks (outside : Surroundings) (options : Options) (object : ObjectFile)
    (name path : String) (loadBase : Address) (addresses : List Address) (context : ExceptionContext)
    (memory : Memory) (modules : ModuleMap) :
    HeedsSinks addresses (fun sink state =>
        resolveObject outside.demanglers options object name loadBase sink state addresses) ∧
      HeedsSinks addresses (fun sink state =>
        resolveFile outside options path loadBase true sink state addresses) ∧
      HeedsSinks addresses (fun sink state =>
        resolveProcess outside options modules sink state addresses) ∧
      HeedsSinks (Stack.captureException context memory options.maxFrames) (fun sink state =>
        resolveException outside options context memory modules sink state) := by
  refine ⟨?_, ?_, heedsSinks_process outside options modules addresses,
    heedsSinks_process outside options modules _⟩
  · exact heedsSinks_of_plays (map_address_scriptOf _ _ _ _ _) (fun _ member => answering_scriptOf member)
      (resolveObject_eq_play outside.demanglers options object name loadBase · · addresses)
  · exact heedsSinks_of_plays (map_address_scriptOf _ _ _ _ _) (fun _ member => answering_scriptOf member)
      (resolveFile_eq_play outside options path loadBase true · · addresses)

end Symbolizer.Resolve
