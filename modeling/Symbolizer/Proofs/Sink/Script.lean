import Symbolizer.Proofs.Sink.Accepting

/-!
Scripts: what a run has to say of its addresses before any sink has a word in it. A part of a script
holds the reports of one address and the announcements in front of them. Playing a script offers its
parts in order and stops for good at the first report that is not answered with a wish for more; a part
counts when all of it is taken. The trace of a play tells which reports were offered and what was
answered to each.
-/

namespace Symbolizer

structure Part where
  address : Address
  /-- Announcements in front of the answers. -/
  lead : List FrameReport
  answers : List FrameReport

def Part.reports (part : Part) : List FrameReport :=
  part.lead ++ part.answers

abbrev Script := List Part

def Script.reports (script : Script) : List FrameReport :=
  script.flatMap Part.reports

/-- Reports in the order they were offered, each with its answer. -/
abbrev Trace := List (FrameReport × Flow)

/-- A trace is the front of a list of reports that ends with the first refusal. -/
structure EndsAtStop (trace : Trace) (reports : List FrameReport) : Prop where
  front : trace.map Prod.fst <+: reports
  willing : ∀ entry ∈ trace.dropLast, entry.2 = .more
  whole : (∀ entry ∈ trace, entry.2 = .more) → trace.map Prod.fst = reports

namespace Sink

def play (sink : Sink σ) : Progress σ → Script → Progress σ
  | progress, [] => progress
  | progress, part :: rest =>
    match sink.feed progress.state part.reports with
    | (state, .more) => sink.play ⟨state, progress.processed + 1, .more⟩ rest
    | (state, .stop) => ⟨state, progress.processed, .stop⟩

def answersTo (sink : Sink σ) : σ → List FrameReport → Trace
  | _, [] => []
  | state, report :: rest =>
    match sink.onFrame state report with
    | (next, .more) => (report, .more) :: sink.answersTo next rest
    | (_, .stop) => [(report, .stop)]

def recording (sink : Sink σ) : Sink (σ × Trace) :=
  ⟨fun (state, trace) report =>
    let (next, flow) := sink.onFrame state report
    ((next, trace ++ [(report, flow)]), flow)⟩

/-- How many parts have all their answers in a trace, each taken with a wish for more. -/
def served : Script → Trace → Nat
  | [], _ => 0
  | part :: rest, trace =>
    let own := (trace.drop part.lead.length).take part.answers.length
    (if own = part.answers.map (·, .more) then 1 else 0) + served rest (trace.drop part.reports.length)

variable {sink : Sink σ} {state next : σ} {report : FrameReport} {reports : List FrameReport}
  {part : Part} {script : Script}

/-! One report, and one part. -/

theorem feed_cons_of_more (answer : sink.onFrame state report = (next, .more))
    (rest : List FrameReport) : sink.feed state (report :: rest) = sink.feed next rest := by
  rw [feed, answer]

theorem feed_cons_of_stop (answer : sink.onFrame state report = (next, .stop))
    (rest : List FrameReport) : sink.feed state (report :: rest) = (next, .stop) := by
  rw [feed, answer]

theorem answersTo_cons_of_more (answer : sink.onFrame state report = (next, .more))
    (rest : List FrameReport) :
    sink.answersTo state (report :: rest) = (report, .more) :: sink.answersTo next rest := by
  rw [answersTo, answer]

theorem answersTo_cons_of_stop (answer : sink.onFrame state report = (next, .stop))
    (rest : List FrameReport) : sink.answersTo state (report :: rest) = [(report, .stop)] := by
  rw [answersTo, answer]

theorem play_cons_of_more (fed : sink.feed state part.reports = (next, .more)) (processed : Nat)
    (rest : Script) :
    sink.play ⟨state, processed, .more⟩ (part :: rest) =
      sink.play ⟨next, processed + 1, .more⟩ rest := by
  simp only [play, fed]

theorem play_cons_of_stop (fed : sink.feed state part.reports = (next, .stop)) (processed : Nat)
    (rest : Script) :
    sink.play ⟨state, processed, .more⟩ (part :: rest) = ⟨next, processed, .stop⟩ := by
  simp only [play, fed]

theorem feed_append (sink : Sink σ) (state : σ) (first second : List FrameReport) :
    sink.feed state (first ++ second) =
      match sink.feed state first with
      | (next, .more) => sink.feed next second
      | (next, .stop) => (next, .stop) := by
  induction first generalizing state with
  | nil => rfl
  | cons report rest ih =>
    rw [List.cons_append]
    rcases answer : sink.onFrame state report with ⟨next, flow⟩
    cases flow with
    | more => rw [feed_cons_of_more answer, feed_cons_of_more answer, ih next]
    | stop => rw [feed_cons_of_stop answer, feed_cons_of_stop answer]

/-! Traces. -/

theorem recording_onFrame (sink : Sink σ) (state : σ) (trace : Trace) (report : FrameReport) :
    sink.recording.onFrame (state, trace) report =
      (((sink.onFrame state report).1, trace ++ [(report, (sink.onFrame state report).2)]),
        (sink.onFrame state report).2) := rfl

theorem feed_recording (sink : Sink σ) (state : σ) (trace : Trace) (reports : List FrameReport) :
    sink.recording.feed (state, trace) reports =
      (((sink.feed state reports).1, trace ++ sink.answersTo state reports),
        (sink.feed state reports).2) := by
  induction reports generalizing state trace with
  | nil => simp [feed, answersTo]
  | cons report rest ih =>
    have recorded := recording_onFrame sink state trace report
    rcases answer : sink.onFrame state report with ⟨next, flow⟩
    rw [answer] at recorded
    cases flow with
    | more =>
      rw [feed_cons_of_more recorded, feed_cons_of_more answer, answersTo_cons_of_more answer, ih,
        List.append_assoc, List.singleton_append]
    | stop =>
      rw [feed_cons_of_stop recorded, feed_cons_of_stop answer, answersTo_cons_of_stop answer]

theorem answersTo_of_more (taken : sink.feed state reports = (next, .more)) (rest : List FrameReport) :
    sink.answersTo state (reports ++ rest) = reports.map (·, .more) ++ sink.answersTo next rest := by
  induction reports generalizing state with
  | nil =>
    cases taken
    rfl
  | cons report more ih =>
    rw [List.cons_append]
    rcases answer : sink.onFrame state report with ⟨after, flow⟩
    cases flow with
    | more =>
      rw [feed_cons_of_more answer] at taken
      rw [answersTo_cons_of_more answer, ih taken, List.map_cons, List.cons_append]
    | stop =>
      rw [feed_cons_of_stop answer] at taken
      cases taken

theorem answersTo_of_stop (refused : sink.feed state reports = (next, .stop)) :
    ∃ taken report left, reports = taken ++ report :: left ∧
      ∀ rest, sink.answersTo state (reports ++ rest) = taken.map (·, .more) ++ [(report, .stop)] := by
  induction reports generalizing state with
  | nil => cases refused
  | cons report more ih =>
    rcases answer : sink.onFrame state report with ⟨after, flow⟩
    cases flow with
    | more =>
      rw [feed_cons_of_more answer] at refused
      obtain ⟨taken, last, left, split, answers⟩ := ih refused
      refine ⟨report :: taken, last, left, by rw [split, List.cons_append], fun rest => ?_⟩
      rw [List.cons_append, answersTo_cons_of_more answer, answers rest, List.map_cons, List.cons_append]
    | stop =>
      refine ⟨[], report, more, rfl, fun rest => ?_⟩
      rw [List.cons_append, answersTo_cons_of_stop answer]
      rfl

theorem endsAtStop_answersTo (sink : Sink σ) (state : σ) (reports : List FrameReport) :
    EndsAtStop (sink.answersTo state reports) reports := by
  rcases fed : sink.feed state reports with ⟨next, flow⟩
  cases flow with
  | more =>
    have answers := answersTo_of_more fed []
    rw [List.append_nil, answersTo, List.append_nil] at answers
    have plain : (sink.answersTo state reports).map Prod.fst = reports := by
      simp [answers, Function.comp_def]
    refine ⟨by rw [plain], fun entry member => ?_, fun _ => plain⟩
    have inside := List.mem_of_mem_dropLast member
    rw [answers] at inside
    obtain ⟨report, _, rfl⟩ := List.mem_map.1 inside
    rfl
  | stop =>
    obtain ⟨taken, report, left, split, answers⟩ := answersTo_of_stop fed
    have ends := answers []
    rw [List.append_nil] at ends
    rw [ends]
    refine ⟨?_, fun entry member => ?_, fun willing => ?_⟩
    · refine ⟨left, ?_⟩
      simp [split, Function.comp_def]
    · rw [List.dropLast_concat] at member
      obtain ⟨earlier, _, rfl⟩ := List.mem_map.1 member
      rfl
    · have wrong := willing (report, .stop) (by simp)
      cases wrong

/-! Plays. -/

theorem play_processed_add (sink : Sink σ) (state : σ) (processed : Nat) (script : Script) :
    sink.play ⟨state, processed, .more⟩ script =
      { sink.play ⟨state, 0, .more⟩ script with
        processed := processed + (sink.play ⟨state, 0, .more⟩ script).processed } := by
  induction script generalizing state processed with
  | nil => rfl
  | cons part rest ih =>
    rcases fed : sink.feed state part.reports with ⟨next, flow⟩
    cases flow with
    | more =>
      rw [play_cons_of_more fed, play_cons_of_more fed, ih next (processed + 1), ih next (0 + 1)]
      simp only [Progress.mk.injEq, true_and, and_true]
      omega
    | stop => rw [play_cons_of_stop fed, play_cons_of_stop fed, Nat.add_zero]

theorem play_append (sink : Sink σ) (state : σ) (processed : Nat) (first second : Script) :
    sink.play ⟨state, processed, .more⟩ (first ++ second) =
      match (sink.play ⟨state, processed, .more⟩ first).flow with
      | .more => sink.play (sink.play ⟨state, processed, .more⟩ first) second
      | .stop => sink.play ⟨state, processed, .more⟩ first := by
  induction first generalizing state processed with
  | nil => rfl
  | cons part rest ih =>
    rw [List.cons_append]
    rcases fed : sink.feed state part.reports with ⟨next, flow⟩
    cases flow with
    | more => rw [play_cons_of_more fed, play_cons_of_more fed, ih]
    | stop => rw [play_cons_of_stop fed, play_cons_of_stop fed]

theorem reports_cons (part : Part) (rest : Script) :
    Script.reports (part :: rest) = part.reports ++ rest.reports := by
  rw [Script.reports, List.flatMap_cons, Script.reports]

theorem play_of_accepting (accepting : sink.Accepting) (state : σ) (processed : Nat) (script : Script) :
    sink.play ⟨state, processed, .more⟩ script =
      ⟨sink.absorb state script.reports, processed + script.length, .more⟩ := by
  induction script generalizing state processed with
  | nil => rfl
  | cons part rest ih =>
    rw [play_cons_of_more (feed_of_accepting accepting state _), ih, reports_cons, absorb_append,
      List.length_cons]
    congr 1
    omega

/-- A script is offered as the stream of its reports. -/
theorem play_state (sink : Sink σ) (state : σ) (processed : Nat) (script : Script) :
    (sink.play ⟨state, processed, .more⟩ script).state = (sink.feed state script.reports).1 := by
  induction script generalizing state processed with
  | nil => rfl
  | cons part rest ih =>
    rw [reports_cons, feed_append]
    rcases fed : sink.feed state part.reports with ⟨next, flow⟩
    cases flow with
    | more => rw [play_cons_of_more fed, ih]
    | stop => rw [play_cons_of_stop fed]

theorem state_play_collector (script : Script) :
    (collector.play ⟨[], 0, .more⟩ script).state = script.reports := by
  rw [play_of_accepting collector_accepting, absorb_collector, List.nil_append]

theorem play_recording (sink : Sink σ) (state : σ) (trace : Trace) (processed : Nat) (script : Script) :
    sink.recording.play ⟨(state, trace), processed, .more⟩ script =
      ⟨((sink.play ⟨state, processed, .more⟩ script).state,
          trace ++ sink.answersTo state script.reports),
        (sink.play ⟨state, processed, .more⟩ script).processed,
        (sink.play ⟨state, processed, .more⟩ script).flow⟩ := by
  induction script generalizing state trace processed with
  | nil => simp [play, Script.reports, answersTo]
  | cons part rest ih =>
    have recorded := feed_recording sink state trace part.reports
    rw [reports_cons]
    rcases fed : sink.feed state part.reports with ⟨next, flow⟩
    rw [fed] at recorded
    cases flow with
    | more =>
      have own := answersTo_of_more fed []
      rw [List.append_nil, answersTo, List.append_nil] at own
      rw [play_cons_of_more recorded, play_cons_of_more fed, ih, answersTo_of_more fed, own,
        List.append_assoc]
    | stop =>
      obtain ⟨taken, report, left, _, answers⟩ := answersTo_of_stop fed
      have own := answers []
      rw [List.append_nil] at own
      rw [play_cons_of_stop recorded, play_cons_of_stop fed, answers, own]

/-! What is counted. -/

theorem served_nil (nonempty : ∀ part ∈ script, part.answers ≠ []) : served script [] = 0 := by
  induction script with
  | nil => rfl
  | cons part rest ih =>
    obtain ⟨first, later⟩ := List.forall_mem_cons.1 nonempty
    have missing : ¬[] = part.answers.map fun report => (report, Flow.more) := by
      intro same
      exact first (List.map_eq_nil_iff.1 same.symm)
    simp only [served, List.drop_nil, List.take_nil, if_neg missing, ih later]

theorem served_of_more (part : Part) (rest : Script) (trace : Trace) :
    served (part :: rest) (part.reports.map (·, .more) ++ trace) = 1 + served rest trace := by
  have behind : (part.reports.map (·, Flow.more) ++ trace).drop part.lead.length =
      part.answers.map (·, .more) ++ trace := by
    rw [Part.reports, List.map_append, List.append_assoc]
    exact List.drop_left' (List.length_map _)
  have own : (part.answers.map (·, Flow.more) ++ trace).take part.answers.length =
      part.answers.map (·, .more) := List.take_left' (List.length_map _)
  have left : (part.reports.map (·, Flow.more) ++ trace).drop part.reports.length = trace :=
    List.drop_left' (List.length_map _)
  simp only [served, behind, own, left, ↓reduceIte]

theorem served_of_stop {rest : Script} {taken left : List FrameReport}
    (split : part.reports = taken ++ report :: left)
    (nonempty : ∀ other ∈ part :: rest, other.answers ≠ []) :
    served (part :: rest) (taken.map (·, .more) ++ [(report, .stop)]) = 0 := by
  obtain ⟨first, later⟩ := List.forall_mem_cons.1 nonempty
  have size : part.lead.length + part.answers.length = taken.length + (left.length + 1) := by
    have lengths := congrArg List.length split
    rwa [Part.reports, List.length_append, List.length_append, List.length_cons] at lengths
  have positive := List.length_pos_of_ne_nil first
  have past : (taken.map (·, Flow.more) ++ [(report, Flow.stop)]).drop part.reports.length = [] := by
    apply List.drop_eq_nil_of_le
    simp only [Part.reports, List.length_append, List.length_map, List.length_singleton]
    omega
  have short : ((taken.map (·, Flow.more) ++ [(report, Flow.stop)]).drop part.lead.length).take
      part.answers.length ≠ part.answers.map (·, .more) := by
    intro same
    have reach := congrArg List.length same
    simp only [List.length_take, List.length_drop, List.length_append, List.length_map,
      List.length_singleton] at reach
    -- The answers would reach to the end of the trace, where the refusal stands.
    have inside : (report, Flow.stop) ∈ part.answers.map (·, Flow.more) := by
      rw [← same, List.take_of_length_le (by simp; omega),
        List.drop_append_of_le_length (by simp; omega)]
      exact List.mem_append_right _ List.mem_cons_self
    obtain ⟨_, _, wrong⟩ := List.mem_map.1 inside
    cases wrong
  simp only [served, past, if_neg short, served_nil later]

theorem play_processed (sink : Sink σ) (state : σ) (processed : Nat)
    (nonempty : ∀ part ∈ script, part.answers ≠ []) :
    (sink.play ⟨state, processed, .more⟩ script).processed =
      processed + served script (sink.answersTo state script.reports) := by
  induction script generalizing state processed with
  | nil => rfl
  | cons part rest ih =>
    rw [reports_cons]
    rcases fed : sink.feed state part.reports with ⟨next, flow⟩
    cases flow with
    | more =>
      rw [play_cons_of_more fed, answersTo_of_more fed, served_of_more,
        ih next (processed + 1) (List.forall_mem_cons.1 nonempty).2]
      omega
    | stop =>
      obtain ⟨taken, report, left, split, answers⟩ := answersTo_of_stop fed
      rw [play_cons_of_stop fed, answers, served_of_stop split nonempty, Nat.add_zero]

end Sink

end Symbolizer
