import Symbolizer.Program
import Symbolizer.Proofs.StackPrinter.Numbering

/-!
Outputs that fail. Frames are printed up to the first write that fails; the printer answers it with a refusal
and is offered no report behind it, and reports that print nothing are never in the way. What is written is
the lines of the frames in front of the failing one and at most a part of its line. The error is kept until
the end, so a run ends with exit code zero exactly when every line was written and the output was flushed.
-/

namespace Symbolizer

inductive Output.Written (output : Output ω) : ω → List String → ω → Prop where
  | nil (out : ω) : Written output out [] out
  | cons {out next last : ω} {text : String} {texts : List String}
      (wrote : output.write out text = (next, none)) (rest : Written output next texts last) :
      Written output out (text :: texts) last

/-- The text that an output holds: a write puts its whole text behind it, and one that fails a front of it. -/
structure Output.Holds (output : Output ω) (textOf : ω → String) : Prop where
  whole : ∀ {out next text}, output.write out text = (next, none) → textOf next = textOf out ++ text
  cut : ∀ {out next text error}, output.write out text = (next, some error) →
    ∃ front : String, front.toList <+: text.toList ∧ textOf next = textOf out ++ front

namespace Printer

def ownLine (index : Nat) (report : FrameReport) : List String :=
  if isSilent report then [] else [line index report]

def linesFrom : Nat → List FrameReport → List String
  | _, [] => []
  | index, report :: rest => ownLine index report ++ linesFrom (indexAfter index report) rest

/-- How reports are printed: the answers to them, the printer they leave and what it finishes with. Either
all are taken, or one is the first whose line cannot be written. -/
inductive Printing (output : Output ω) (out : ω) (index : Nat) (reports : List FrameReport) :
    Trace → Printer ω → Option String → Prop where
  | whole {last : ω} (written : output.Written out (linesFrom index reports) last)
      (text : ∀ textOf, output.Holds textOf →
        textOf last = textOf out ++ String.join (linesFrom index reports)) :
      Printing output out index reports (reports.map (·, .more)) ⟨last, reports.foldl indexAfter index, none⟩
        (output.flush last)
  | lost {taken rest : List FrameReport} {failing : FrameReport} {before last : ω} {error : String}
      (split : reports = taken ++ failing :: rest)
      (audible : failing.resolution ≠ .baseAddress ∧ failing.resolution ≠ .notFound)
      (written : output.Written out (linesFrom index taken) before)
      (fails : output.write before (line (taken.foldl indexAfter index) failing) = (last, some error))
      (text : ∀ textOf, output.Holds textOf → ∃ front : String,
        front.toList <+: (line (taken.foldl indexAfter index) failing).toList ∧
          textOf last = textOf out ++ String.join (linesFrom index taken) ++ front) :
      Printing output out index reports (taken.map (·, .more) ++ [(failing, .stop)])
        ⟨last, (taken ++ [failing]).foldl indexAfter index, some error⟩ (some error)

end Printer

variable {output : Output ω} {out next last : ω} {texts more : List String}

/-! Texts that are written. -/

namespace Output

theorem written_append (first : output.Written out texts next) (second : output.Written next more last) :
    output.Written out (texts ++ more) last := by
  induction first with
  | nil => exact second
  | cons wrote _ ih => exact .cons wrote (ih second)

theorem written_of_append (written : output.Written out (texts ++ more) last) :
    ∃ next, output.Written out texts next ∧ output.Written next more last := by
  induction texts generalizing out with
  | nil => exact ⟨out, .nil out, written⟩
  | cons text texts ih =>
    cases written with
    | cons wrote rest =>
      obtain ⟨next, first, second⟩ := ih rest
      exact ⟨next, .cons wrote first, second⟩

theorem written_unique {other : ω} (written : output.Written out texts last)
    (written_too : output.Written out texts other) : last = other := by
  induction written with
  | nil =>
    cases written_too
    rfl
  | cons wrote _ ih =>
    cases written_too with
    | cons wrote_too rest =>
      rw [wrote] at wrote_too
      cases wrote_too
      exact ih rest

theorem text_of_written {textOf : ω → String} (holds : output.Holds textOf)
    (written : output.Written out texts last) : textOf last = textOf out ++ String.join texts := by
  induction written with
  | nil => simp
  | cons wrote _ ih => rw [ih, holds.whole wrote, String.join_cons, String.append_assoc]

end Output

namespace Printer

/-! One report. -/

theorem isSilent_iff {report : FrameReport} :
    isSilent report = true ↔ report.resolution = .baseAddress ∨ report.resolution = .notFound := by
  unfold isSilent
  cases report.resolution <;> simp

/-- The line of a report is written and it is taken, or its write fails and it is refused. Without a line
nothing can fail. -/
theorem print_cases (output : Output ω) (out : ω) (index : Nat) (report : FrameReport) :
    (∃ next, output.Written out (ownLine index report) next ∧
        print output ⟨out, index, none⟩ report = (⟨next, indexAfter index report, none⟩, .more)) ∨
      ∃ last error, (report.resolution ≠ .baseAddress ∧ report.resolution ≠ .notFound) ∧
        output.write out (line index report) = (last, some error) ∧
        print output ⟨out, index, none⟩ report = (⟨last, indexAfter index report, some error⟩, .stop) := by
  unfold print ownLine
  by_cases silent : report.resolution = .baseAddress ∨ report.resolution = .notFound
  · rw [isSilent_iff.2 silent]
    exact .inl ⟨out, .nil out, rfl⟩
  · have audible := not_or.1 silent
    rw [isSilent_eq_false audible.2 audible.1]
    rcases wrote : output.write out (line index report) with ⟨after, fault⟩
    cases fault with
    | none => exact .inl ⟨after, .cons wrote (.nil after), by simp⟩
    | some error => exact .inr ⟨after, error, audible, rfl, by simp⟩

/-! A stream of reports. -/

theorem linesFrom_append (index : Nat) (first second : List FrameReport) :
    linesFrom index (first ++ second) =
      linesFrom index first ++ linesFrom (first.foldl indexAfter index) second := by
  induction first generalizing index with
  | nil => rfl
  | cons report rest ih => rw [List.cons_append, linesFrom, ih, linesFrom, List.append_assoc, List.foldl_cons]

theorem printing_of_written {index : Nat} {reports : List FrameReport}
    (written : output.Written out (linesFrom index reports) last) :
    Printing output out index reports (reports.map (·, .more)) ⟨last, reports.foldl indexAfter index, none⟩
      (output.flush last) :=
  .whole written fun _ holds => Output.text_of_written holds written

theorem printing_of_failed {index : Nat} {failing : FrameReport} {before : ω} {error : String}
    (taken rest : List FrameReport)
    (audible : failing.resolution ≠ .baseAddress ∧ failing.resolution ≠ .notFound)
    (written : output.Written out (linesFrom index taken) before)
    (fails : output.write before (line (taken.foldl indexAfter index) failing) = (last, some error)) :
    Printing output out index (taken ++ failing :: rest) (taken.map (·, .more) ++ [(failing, .stop)])
      ⟨last, (taken ++ [failing]).foldl indexAfter index, some error⟩ (some error) := by
  refine .lost rfl audible written fails fun textOf holds => ?_
  obtain ⟨front, cut, text⟩ := holds.cut fails
  exact ⟨front, cut, by rw [text, Output.text_of_written holds written]⟩

theorem printing_cons {index : Nat} {report : FrameReport} {rest : List FrameReport} {trace : Trace}
    {printer : Printer ω} {verdict : Option String} (own : output.Written out (ownLine index report) next)
    (printing : Printing output next (indexAfter index report) rest trace printer verdict) :
    Printing output out index (report :: rest) ((report, .more) :: trace) printer verdict := by
  cases printing with
  | whole written => exact printing_of_written (Output.written_append own written)
  | @lost taken left failing before last error split audible written fails =>
    subst split
    exact printing_of_failed (report :: taken) left audible (Output.written_append own written) fails

/-- Reports that the printer is offered up to its first refusal. -/
theorem printing_feed (output : Output ω) (out : ω) (index : Nat) (reports : List FrameReport) :
    Printing output out index reports ((Sink.printer output).answersTo ⟨out, index, none⟩ reports)
      ((Sink.printer output).feed ⟨out, index, none⟩ reports).1
      (((Sink.printer output).feed ⟨out, index, none⟩ reports).1.finish output) := by
  induction reports generalizing out index with
  | nil => exact printing_of_written (.nil out)
  | cons report rest ih =>
    obtain ⟨next, own, taken⟩ | ⟨last, error, audible, fails, refused⟩ := print_cases output out index report
    · have answer : (Sink.printer output).onFrame ⟨out, index, none⟩ report = _ := taken
      rw [Sink.answersTo_cons_of_more answer, Sink.feed_cons_of_more answer]
      exact printing_cons own (ih next (indexAfter index report))
    · have answer : (Sink.printer output).onFrame ⟨out, index, none⟩ report = _ := refused
      rw [Sink.answersTo_cons_of_stop answer, Sink.feed_cons_of_stop answer]
      exact printing_of_failed [] rest audible (.nil out) fails

theorem verdict_eq_none_iff {reports : List FrameReport} {trace : Trace} {printer : Printer ω} {index : Nat}
    {verdict : Option String} (printing : Printing output out index reports trace printer verdict)
    (last : ω) : verdict = none ∧ printer.out = last ↔
      output.Written out (linesFrom index reports) last ∧ output.flush last = none := by
  cases printing with
  | @whole written_to written =>
    constructor
    · rintro ⟨flushed, rfl⟩
      exact ⟨written, flushed⟩
    · rintro ⟨written_too, flushed⟩
      cases Output.written_unique written written_too
      exact ⟨flushed, rfl⟩
  | @lost taken rest failing before cut error split audible written fails =>
    constructor
    · rintro ⟨wrong, _⟩
      cases wrong
    · rintro ⟨written_too, _⟩
      rw [split, linesFrom_append] at written_too
      obtain ⟨middle, first, second⟩ := Output.written_of_append written_too
      cases Output.written_unique written first
      rw [linesFrom, ownLine, isSilent_eq_false audible.2 audible.1] at second
      cases second with
      | cons wrote _ =>
        rw [fails] at wrote
        cases wrote

/-! Resolutions onto outputs. -/

/-- The printer of a run over an output is offered the reports of the run up to the first whose line cannot
be written, and finishes with the error of that write, else with what the flush says. -/
def TellsLosses (run : ∀ {σ : Type}, Sink σ → σ → Progress σ) : Prop :=
  ∀ {ω : Type} (output : Output ω) (out : ω), ∃ trace,
    (run (Sink.printer output).recording (start out, [])).state =
      ((run (Sink.printer output) (start out)).state, trace) ∧
    Printing output out 0 (run Sink.collector []).state trace (run (Sink.printer output) (start out)).state
      ((run (Sink.printer output) (start out)).state.finish output)

theorem tellsLosses_of_plays {run : ∀ {σ : Type}, Sink σ → σ → Progress σ} {script : Script}
    (plays : ∀ {σ : Type} (sink : Sink σ) (state : σ),
      run sink state = sink.play ⟨state, 0, .more⟩ script) : TellsLosses run := by
  intro ω output out
  refine ⟨(Sink.printer output).answersTo (start out) script.reports, ?_, ?_⟩
  · show (run (Sink.printer output).recording (start out, [])).state =
      ((run (Sink.printer output) (start out)).state, _)
    rw [plays, plays, Sink.play_recording, List.nil_append]
  · show Printing output out 0 (run Sink.collector []).state _ (run (Sink.printer output) (start out)).state
      ((run (Sink.printer output) (start out)).state.finish output)
    rw [plays, plays, Sink.state_play_collector, Sink.play_state]
    exact printing_feed output out 0 script.reports

end Printer

namespace Program

open Printer (linesFrom start)

theorem resolve?_eq_play (world : World) (invocation : CommandLine.Invocation) :
    ∃ script : Option Script, ∀ {σ : Type} (sink : Sink σ) (state : σ),
      resolve? world invocation sink state = script.map (sink.play ⟨state, 0, .more⟩) := by
  let options := optionsOf world.environment invocation
  unfold resolve?
  cases invocation.command with
  | file image base addresses =>
    refine ⟨some (Resolve.scriptOf image ⟨base⟩ (Resolve.sourceOfFile? world.surroundings options image)
      true (addressesOf addresses)), fun sink state => ?_⟩
    exact congrArg some (Resolve.resolveFile_eq_play _ _ image ⟨base⟩ true sink state _)
  | pid pid addresses =>
    refine ⟨(world.memoryMap pid).map fun text => Process.scriptUnder world.surroundings options []
      (Process.governed (Modules.ofMaps text).toMap none (addressesOf addresses)), fun sink state => ?_⟩
    rw [Option.map_map]
    exact congrArg (Option.map · (world.memoryMap pid)) (funext fun text =>
      Process.resolveProcess_eq_play _ _ _ sink state _)

theorem outcomeOf_eq_zero_iff {printer : Printer ω} :
    outcomeOf output printer = ⟨0, last⟩ ↔ printer.finish output = none ∧ printer.out = last := by
  unfold outcomeOf
  cases printer.finish output <;> simp

theorem printTo_eq_zero_iff (output : Output ω) (out last : ω) (world : World)
    (invocation : CommandLine.Invocation) :
    printTo output out world invocation = ⟨0, last⟩ ↔
      logsWell world = true ∧ ∃ progress, resolve? world invocation Sink.collector [] = some progress ∧
        output.Written out (linesFrom 0 progress.state) last ∧ output.flush last = none := by
  obtain ⟨script, plays⟩ := resolve?_eq_play world invocation
  unfold printTo
  rw [plays, plays]
  cases logged : logsWell world with
  | false => simp
  | true =>
    cases script with
    | none => simp
    | some script =>
      have whole := Printer.verdict_eq_none_iff (Printer.printing_feed output out 0 script.reports) last
      rw [← Sink.play_state _ _ 0] at whole
      simp only [Option.map_some, Option.some.injEq, exists_eq_left', Sink.state_play_collector, true_and,
        Bool.not_true, Bool.false_eq_true, ↓reduceIte, outcomeOf_eq_zero_iff]
      exact whole

theorem printTo_exitCode (output : Output ω) (out : ω) (world : World)
    (invocation : CommandLine.Invocation) :
    (printTo output out world invocation).exitCode = 0 ∨
      (printTo output out world invocation).exitCode = 1 := by
  unfold printTo
  split
  next => exact .inr rfl
  next =>
    split
    next progress _ =>
      unfold outcomeOf
      cases progress.state.finish output with
      | none => exact .inl rfl
      | some error => exact .inr rfl
    next => exact .inr rfl

/-- Every way to resolve addresses tells its printer's first failing write: the reports in front of it are
taken and nothing is offered behind it, the output holds their lines and at most a part of one more, and the
error of the write is what the printer finishes with. A run of the program ends with exit code zero exactly
when every line of what it resolves is written and the flush behind them succeeds, else with one. -/
theorem resolutions_tell_losses (outside : Surroundings) (options : Options) (object : ObjectFile)
    (name path : String) (loadBase : Address) (announce : Bool) (addresses : List Address)
    (context : ExceptionContext) (memory : Memory) (modules : ModuleMap) :
    Printer.TellsLosses (fun sink state =>
        resolveObject outside.demanglers options object name loadBase sink state addresses) ∧
      Printer.TellsLosses (fun sink state =>
        resolveFile outside options path loadBase announce sink state addresses) ∧
      Printer.TellsLosses (fun sink state =>
        resolveProcess outside options modules sink state addresses) ∧
      Printer.TellsLosses (fun sink state =>
        resolveException outside options context memory modules sink state) ∧
      ∀ (world : World) (invocation : CommandLine.Invocation) {ω : Type} (output : Output ω) (out : ω),
        ((printTo output out world invocation).exitCode = 0 ∨
          (printTo output out world invocation).exitCode = 1) ∧
        ∀ last, printTo output out world invocation = ⟨0, last⟩ ↔
          logsWell world = true ∧ ∃ progress,
            resolve? world invocation Sink.collector [] = some progress ∧
              output.Written out (linesFrom 0 progress.state) last ∧ output.flush last = none := by
  refine ⟨?_, ?_, ?_, ?_, fun world invocation ω output out => ⟨?_, fun last => ?_⟩⟩
  · exact Printer.tellsLosses_of_plays fun sink state =>
      Resolve.resolveObject_eq_play outside.demanglers options object name loadBase sink state addresses
  · exact Printer.tellsLosses_of_plays fun sink state =>
      Resolve.resolveFile_eq_play outside options path loadBase announce sink state addresses
  · exact Printer.tellsLosses_of_plays fun sink state =>
      Process.resolveProcess_eq_play outside options modules sink state addresses
  · exact Printer.tellsLosses_of_plays fun sink state =>
      Process.resolveProcess_eq_play outside options modules sink state _
  · exact printTo_exitCode output out world invocation
  · exact printTo_eq_zero_iff output out last world invocation

/-- An output of limited size. A write that does not fit leaves the part of it that does. -/
def roomFor (size : Nat) : Output String where
  write text more :=
    if text.length + more.length ≤ size then (text ++ more, none)
    else (text ++ String.ofList (more.toList.take (size - text.length)), some "no space left on device")
  flush _ := none

theorem roomFor_holds (size : Nat) : (roomFor size).Holds id := by
  constructor
  · intro out next text wrote
    unfold roomFor at wrote
    dsimp only at wrote
    split at wrote
    next => cases wrote; rfl
    next => cases wrote
  · intro out next text error wrote
    unfold roomFor at wrote
    dsimp only at wrote
    split at wrote
    next => cases wrote
    next =>
      cases wrote
      refine ⟨String.ofList (text.toList.take (size - out.length)), ?_, rfl⟩
      rw [String.toList_ofList]
      exact List.take_prefix _ _

def lowWorld : World :=
  ⟨Printer.lowFiles, ⟨none, none, none⟩, fun _ => none, fun _ => true⟩

def lowInvocation : CommandLine.Invocation :=
  ⟨.file "a.exe" 0x1000 [0x10, 0x2000, 0x20, 0x30], [], false, none, none⟩

/-- The base is announced and one address is not found, which both need no room. The second line does not
fit, and the last address is never looked at. -/
theorem resolutions_tell_losses_roomFor :
    (roomFor 60).Holds id ∧ ∃ trace printer,
      (resolveFile Printer.lowFiles Options.default "a.exe" ⟨0x1000⟩ true
          (Sink.printer (roomFor 60)).recording (start "", []) [⟨0x10⟩, ⟨0x2000⟩, ⟨0x20⟩, ⟨0x30⟩]).state =
        (printer, trace) ∧
      trace.map Prod.snd = [.more, .more, .more, .stop] ∧
      printer.out = "stack 00: 0x0000000000000010 (a.c:1)\nstack 02: 0x00000000000" ∧
      printer.finish (roomFor 60) = some "no space left on device" ∧
      (printTo (roomFor 60) "" lowWorld lowInvocation).exitCode = 1 := by
  obtain ⟨_, tells, _, _, exits⟩ := resolutions_tell_losses Printer.lowFiles Options.default
    (ObjectFile.ofSections 8 none []) "a.exe" "a.exe" ⟨0x1000⟩ true [⟨0x10⟩, ⟨0x2000⟩, ⟨0x20⟩, ⟨0x30⟩]
    ⟨⟨0⟩, ⟨0⟩, ⟨0⟩⟩ ⟨8, fun _ => .ok 0⟩ (Modules.toMap [])
  obtain ⟨trace, recorded, _⟩ := tells (roomFor 60) ""
  have answered := congrArg (fun recorded => recorded.2.map Prod.snd) recorded
  refine ⟨roomFor_holds 60, trace, _, recorded, answered.symm.trans ?_, ?_, ?_,
    (exits lowWorld lowInvocation (roomFor 60) "").1.resolve_left ?_⟩
  · decide +kernel
  · decide +kernel
  · decide +kernel
  · decide +kernel

end Program

end Symbolizer
