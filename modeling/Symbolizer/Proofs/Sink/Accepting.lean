import Mathlib
import Symbolizer.Sink

/-!
Sinks that always ask for more. Such a sink takes every report it is offered, so what a run leaves
behind is its state after all of them.
-/

namespace Symbolizer.Sink

def Accepting (sink : Sink σ) : Prop :=
  ∀ state report, (sink.onFrame state report).2 = .more

def absorb (sink : Sink σ) (state : σ) (reports : List FrameReport) : σ :=
  reports.foldl (fun state report => (sink.onFrame state report).1) state

@[simp]
theorem absorb_nil (sink : Sink σ) (state : σ) : sink.absorb state [] = state := rfl

theorem absorb_append (sink : Sink σ) (state : σ) (first second : List FrameReport) :
    sink.absorb state (first ++ second) = sink.absorb (sink.absorb state first) second :=
  List.foldl_append

theorem feed_of_accepting {sink : Sink σ} (accepting : sink.Accepting) (state : σ)
    (reports : List FrameReport) : sink.feed state reports = (sink.absorb state reports, .more) := by
  induction reports generalizing state with
  | nil => rfl
  | cons report rest ih =>
    have answer := accepting state report
    rw [feed]
    split
    next next taken =>
      rw [ih next]
      simp only [absorb, List.foldl_cons, taken]
    next next refused =>
      rw [refused] at answer
      cases answer

theorem collector_accepting : collector.Accepting :=
  fun _ _ => rfl

theorem absorb_collector (seen reports : List FrameReport) :
    collector.absorb seen reports = seen ++ reports := by
  induction reports generalizing seen with
  | nil => simp
  | cons report rest ih =>
    have step : collector.absorb seen (report :: rest) = collector.absorb (seen ++ [report]) rest := rfl
    rw [step, ih, List.append_assoc, List.singleton_append]

end Symbolizer.Sink
