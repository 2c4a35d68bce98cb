import Symbolizer.Proofs.Resolve.Interruption
import Symbolizer.StackPrinter

/-!
The numbers that the printer gives. It sees a stream of reports and takes a frame without an address for the
rest of an inline chain, so it numbers the addresses of a run from zero on, one after the other, as long as
none of them is address zero. Frames that are found at address zero pass for the rest of the chain in front
of them: they are printed without a number, and from there on every number falls short.
-/

namespace Symbolizer

open Resolve (Answering Answers)

def Output.Takes (output : Output ω) : Prop :=
  ∀ out text, (output.write out text).2 = none

def Output.writeAll (output : Output ω) (out : ω) (texts : List String) : ω :=
  texts.foldl (fun out text => (output.write out text).1) out

/-- Frames were found at address zero, and look like the rest of a chain. -/
def Part.isMerged (part : Part) : Bool :=
  part.address.isZero &&
    part.answers.all fun report => report.resolution ≠ .notFound && report.resolution ≠ .noDebugSymbols

namespace Printer

def content (report : FrameReport) : String :=
  " (" ++ detail report ++ ")" ++ ((report.functionName?.map fun name => " [" ++ name ++ "]").getD "") ++ "\n"

def numberedLine (number : Nat) (report : FrameReport) : String :=
  "stack " ++ Text.zeroPadded 2 (Text.decimalDigits number) ++ ": " ++ report.address.display ++
    content report

def unnumberedLine (report : FrameReport) : String :=
  "          " ++ content report

/-- The lines of one address: none when it was not found, else one for each frame, the first of them with
the number of the address if it has one. -/
def linesOf (number : Option Nat) : List FrameReport → List String
  | [] => []
  | first :: outer =>
    if first.resolution = .notFound then []
    else (number.elim unnumberedLine numberedLine) first :: outer.map unnumberedLine

def numbers : Nat → Script → List (Option Nat)
  | _, [] => []
  | next, part :: rest =>
    if part.isMerged then none :: numbers next rest else some next :: numbers (next + 1) rest

def pages (next : Nat) (script : Script) : List String :=
  ((script.zip (numbers next script)).map fun (part, number) => linesOf number part.answers).flatten

variable {output : Output ω} {report : FrameReport} {part : Part} {script : Script}

theorem linesOf_of_missing (number : Option Nat) (outer : List FrameReport)
    (missing : report.resolution = .notFound) : linesOf number (report :: outer) = [] :=
  if_pos missing

theorem linesOf_of_found (number : Option Nat) (outer : List FrameReport)
    (found : report.resolution ≠ .notFound) :
    linesOf number (report :: outer) =
      number.elim unnumberedLine numberedLine report :: outer.map unnumberedLine :=
  if_neg found

/-! One report. -/

theorem frame_of_continuation (continues : report.isContinuation = true) :
    report.resolution ≠ .baseAddress ∧ report.resolution ≠ .notFound ∧
      report.resolution ≠ .noDebugSymbols := by
  unfold FrameReport.isContinuation at continues
  refine ⟨?_, ?_, ?_⟩
  all_goals
    intro kind
    rw [kind] at continues
    cases continues

theorem isSilent_eq_false (found : report.resolution ≠ .notFound) (plain : report.resolution ≠ .baseAddress) :
    isSilent report = false := by
  unfold isSilent
  cases kind : report.resolution with
  | baseAddress => exact absurd kind plain
  | notFound => exact absurd kind found
  | noDebugSymbols => rfl
  | noSourceFile => rfl
  | resolved location function => rfl

theorem line_of_continuation (index : Nat) (continues : report.isContinuation = true) :
    line index report = unnumberedLine report := by
  rw [line, lineStart, if_pos continues, unnumberedLine, content]
  simp only [String.append_assoc]

theorem line_of_first (index : Nat) (begins : report.isContinuation = false) :
    line index report = numberedLine index report := by
  have plain : ¬report.isContinuation = true := by simp [begins]
  rw [line, lineStart, if_neg plain, numberedLine, content]
  simp only [String.append_assoc]

theorem print_of_takes (takes : output.Takes) (out : ω) (index : Nat) (error : Option String)
    (report : FrameReport) :
    print output ⟨out, index, error⟩ report =
      (⟨if isSilent report then out else (output.write out (line index report)).1,
        indexAfter index report, error⟩, .more) := by
  unfold print
  cases isSilent report with
  | true => rfl
  | false =>
    have written := takes out (line index report)
    rcases wrote : output.write out (line index report) with ⟨after, fault⟩
    rw [wrote] at written
    cases written
    simp

theorem accepting_of_takes (takes : output.Takes) : (Sink.printer output).Accepting :=
  fun printer report =>
    congrArg Prod.snd (print_of_takes takes printer.out printer.index printer.error report)

/-! One part. -/

theorem absorb_cons (takes : output.Takes) (out : ω) (index : Nat) (report : FrameReport)
    (rest : List FrameReport) :
    (Sink.printer output).absorb ⟨out, index, none⟩ (report :: rest) =
      (Sink.printer output).absorb
        ⟨if isSilent report then out else (output.write out (line index report)).1,
          indexAfter index report, none⟩ rest := by
  show (Sink.printer output).absorb (print output ⟨out, index, none⟩ report).1 rest = _
  rw [print_of_takes takes]

theorem absorb_announced (takes : output.Takes) (out : ω) (index : Nat) {lead : List FrameReport}
    (announced : ∀ report ∈ lead, report.resolution = .baseAddress) :
    (Sink.printer output).absorb ⟨out, index, none⟩ lead = ⟨out, index, none⟩ := by
  induction lead with
  | nil => rfl
  | cons report rest ih =>
    obtain ⟨here, later⟩ := List.forall_mem_cons.1 announced
    have silent : isSilent report = true := by simp [isSilent, here]
    have unmoved : indexAfter index report = index := by simp [indexAfter, here]
    rw [absorb_cons takes, silent, unmoved]
    exact ih later

theorem absorb_continuations (takes : output.Takes) (out : ω) (index : Nat) {reports : List FrameReport}
    (continues : ∀ report ∈ reports, report.isContinuation = true) :
    (Sink.printer output).absorb ⟨out, index, none⟩ reports =
      ⟨output.writeAll out (reports.map unnumberedLine), index, none⟩ := by
  induction reports generalizing out with
  | nil => rfl
  | cons report rest ih =>
    obtain ⟨here, later⟩ := List.forall_mem_cons.1 continues
    obtain ⟨plain, found, _⟩ := frame_of_continuation here
    have unmoved : indexAfter index report = index := by simp [indexAfter, here]
    rw [absorb_cons takes, isSilent_eq_false found plain, unmoved, line_of_continuation index here]
    exact ih _ later

theorem continues_of_tail {address : Address} {first : FrameReport} {outer : List FrameReport}
    (answers : Answers address (first :: outer)) {report : FrameReport} (member : report ∈ outer) :
    report.isContinuation = true := by
  have inside : report ∈ first :: outer := List.mem_cons_of_mem _ member
  have nowhere : report.address = Address.zero := answers.later report member
  have among : first :: outer ≠ [report] := by
    intro single
    rw [(List.cons.inj single).2] at member
    cases member
  unfold FrameReport.isContinuation
  cases kind : report.resolution with
  | baseAddress => exact absurd kind (answers.unannounced report inside)
  | notFound => exact absurd (answers.alone report inside (.inl kind)) among
  | noDebugSymbols => exact absurd (answers.alone report inside (.inr kind)) among
  | noSourceFile => simp [nowhere, Address.isZero, Address.zero]
  | resolved location function => simp [nowhere, Address.isZero, Address.zero]

/-- The printer takes a part for the rest of a chain exactly when its frames were found at address zero. -/
theorem isMerged_eq {first : FrameReport} {outer : List FrameReport} (split : part.answers = first :: outer)
    (answering : Answering part) : part.isMerged = first.isContinuation := by
  have answers : Answers part.address (first :: outer) := split ▸ answering.answers
  have own : first.address = part.address := Option.some.inj answers.first
  have member : first ∈ first :: outer := List.mem_cons_self
  have whole : (outer.all fun report =>
      decide (report.resolution ≠ .notFound) && decide (report.resolution ≠ .noDebugSymbols)) = true := by
    rw [List.all_eq_true]
    intro report inside
    simpa using (frame_of_continuation (continues_of_tail answers inside)).2
  unfold Part.isMerged FrameReport.isContinuation
  rw [split, List.all_cons, whole, ← own]
  cases kind : first.resolution with
  | baseAddress => exact absurd kind (answers.unannounced first member)
  | notFound => simp
  | noDebugSymbols => simp
  | noSourceFile => simp
  | resolved location function => simp

theorem absorb_part (takes : output.Takes) (out : ω) (index : Nat) (answering : Answering part) :
    (Sink.printer output).absorb ⟨out, index, none⟩ part.reports =
      if part.isMerged then ⟨output.writeAll out (linesOf none part.answers), index, none⟩
      else ⟨output.writeAll out (linesOf (some index) part.answers), index + 1, none⟩ := by
  rw [Part.reports, Sink.absorb_append, absorb_announced takes out index answering.announced]
  cases split : part.answers with
  | nil => exact absurd split answering.nonempty
  | cons first outer =>
    have answers : Answers part.address (first :: outer) := split ▸ answering.answers
    have plain := answers.unannounced first List.mem_cons_self
    have continues : ∀ report ∈ outer, report.isContinuation = true :=
      fun report inside => continues_of_tail answers inside
    rw [isMerged_eq split answering, absorb_cons takes, absorb_continuations takes _ _ continues]
    cases merged : first.isContinuation with
    | true =>
      have found : first.resolution ≠ .notFound := (frame_of_continuation merged).2.1
      have unmoved : indexAfter index first = index := by simp [indexAfter, merged]
      rw [isSilent_eq_false found plain, unmoved, line_of_continuation index merged, if_pos rfl,
        linesOf_of_found none outer found]
      rfl
    | false =>
      have moved : indexAfter index first = index + 1 := by simp [indexAfter, merged, plain]
      by_cases missing : first.resolution = .notFound
      · have silent : isSilent first = true := by simp [isSilent, missing]
        have alone := answers.alone first List.mem_cons_self (.inl missing)
        cases (List.cons.inj alone).2
        rw [silent, moved, if_neg Bool.false_ne_true, linesOf_of_missing (some index) [] missing]
        rfl
      · rw [isSilent_eq_false missing plain, moved, line_of_first index merged, if_neg Bool.false_ne_true,
          if_neg Bool.false_ne_true, linesOf_of_found (some index) outer missing]
        rfl

/-! Whole scripts. -/

theorem writeAll_append (output : Output ω) (out : ω) (first second : List String) :
    output.writeAll out (first ++ second) = output.writeAll (output.writeAll out first) second :=
  List.foldl_append

theorem pages_cons (next : Nat) (part : Part) (rest : Script) :
    pages next (part :: rest) =
      if part.isMerged then linesOf none part.answers ++ pages next rest
      else linesOf (some next) part.answers ++ pages (next + 1) rest := by
  unfold pages
  rw [numbers]
  cases part.isMerged <;> rfl

/-- A script prints its pages, and uses up a number for each part that is not taken for another. -/
theorem absorb_script (takes : output.Takes) (out : ω) (index : Nat)
    (answering : ∀ part ∈ script, Answering part) :
    (Sink.printer output).absorb ⟨out, index, none⟩ script.reports =
      ⟨output.writeAll out (pages index script), index + script.countP (!·.isMerged), none⟩ := by
  induction script generalizing out index with
  | nil => rfl
  | cons part rest ih =>
    obtain ⟨here, later⟩ := List.forall_mem_cons.1 answering
    rw [Sink.reports_cons, Sink.absorb_append, absorb_part takes out index here, pages_cons, List.countP_cons]
    cases merged : part.isMerged with
    | true =>
      simp only [↓reduceIte, Bool.not_true, Bool.false_eq_true, Nat.add_zero]
      rw [ih _ index later, writeAll_append]
    | false =>
      simp only [Bool.false_eq_true, ↓reduceIte, Bool.not_false]
      rw [ih _ (index + 1) later, writeAll_append, Nat.add_assoc, Nat.add_comm 1]

theorem numbers_getElem? (next : Nat) (script : Script) (place : Nat) :
    (numbers next script)[place]? = script[place]?.map fun part =>
      if part.isMerged then none else some (next + (script.take place).countP (!·.isMerged)) := by
  induction script generalizing next place with
  | nil => rfl
  | cons part rest ih =>
    rw [numbers]
    cases place with
    | zero => cases merged : part.isMerged <;> simp [merged]
    | succ place =>
      rw [List.getElem?_cons_succ, List.take_succ_cons, List.countP_cons]
      cases merged : part.isMerged with
      | true => simp [ih]
      | false =>
        simp only [Bool.false_eq_true, ↓reduceIte, Bool.not_false, List.getElem?_cons_succ, ih]
        congr 1
        funext other
        split
        next => rfl
        next =>
          congr 1
          omega

theorem numbers_eq_iff (script : Script) :
    numbers 0 script = (List.range script.length).map some ↔ ∀ part ∈ script, part.isMerged = false := by
  constructor
  · intro same part member
    obtain ⟨place, here⟩ := List.mem_iff_getElem?.1 member
    have inside : place < script.length := (List.getElem?_eq_some_iff.1 here).1
    have number := numbers_getElem? 0 script place
    rw [same, here, List.getElem?_map, List.getElem?_range inside] at number
    by_contra merged
    simp [merged] at number
  · intro plain
    apply List.ext_getElem?
    intro place
    rw [numbers_getElem?, List.getElem?_map]
    cases here : script[place]? with
    | none =>
      have beyond : script.length ≤ place := List.getElem?_eq_none_iff.1 here
      rw [List.getElem?_eq_none (by simpa using beyond)]
      rfl
    | some part =>
      have inside : place < script.length := (List.getElem?_eq_some_iff.1 here).1
      have all : (script.take place).countP (!·.isMerged) = place := by
        rw [List.countP_eq_length.2, List.length_take_of_le inside.le]
        intro other member
        simp [plain other (List.mem_of_mem_take member)]
      rw [List.getElem?_range inside]
      simp [plain part (List.mem_of_getElem? here), all]

/-! Resolutions that are printed. -/

/-- What the printer makes of a run over some addresses, when no write fails. Each address has a part of the
reports, an address that is not found prints nothing, and the frames of the others are printed in their
order. Unless its part is taken for another's, an address is numbered by the addresses in front of it that
have a number. All have their places as numbers, and the counter ends at their count, exactly when no part
is taken for another's. -/
def NumbersFrames (addresses : List Address) (run : ∀ {σ : Type}, Sink σ → σ → Progress σ) : Prop :=
  ∃ script : Script, script.map Part.address = addresses ∧ (∀ part ∈ script, Answering part) ∧
    (run Sink.collector []).state = script.reports ∧
    (∀ {ω : Type} (output : Output ω) (out : ω), output.Takes →
      (run (Sink.printer output) (start out)).state =
          ⟨output.writeAll out (pages 0 script), script.countP (!·.isMerged), none⟩) ∧
    (∀ place (part : Part), script[place]? = some part →
      (numbers 0 script)[place]? =
        some (if part.isMerged then none else some ((script.take place).countP (!·.isMerged)))) ∧
    (numbers 0 script = (List.range addresses.length).map some ↔
      ∀ part ∈ script, part.isMerged = false) ∧
    (script.countP (!·.isMerged) = addresses.length ↔ ∀ part ∈ script, part.isMerged = false)

theorem numbersFrames_of_plays {addresses : List Address} {run : ∀ {σ : Type}, Sink σ → σ → Progress σ}
    (addressed : script.map Part.address = addresses) (answering : ∀ part ∈ script, Answering part)
    (plays : ∀ {σ : Type} (sink : Sink σ) (state : σ),
      run sink state = sink.play ⟨state, 0, .more⟩ script) :
    NumbersFrames addresses run := by
  have long : addresses.length = script.length := by rw [← addressed, List.length_map]
  refine ⟨script, addressed, answering, ?_, fun output out takes => ?_, fun place part here => ?_, ?_, ?_⟩
  · show (run Sink.collector []).state = script.reports
    rw [plays, Sink.state_play_collector]
  · show (run (Sink.printer output) (start out)).state = _
    rw [plays, Sink.play_of_accepting (accepting_of_takes takes)]
    show (Sink.printer output).absorb ⟨out, 0, none⟩ script.reports = _
    rw [absorb_script takes out 0 answering, Nat.zero_add]
  · rw [numbers_getElem?, here, Option.map_some, Nat.zero_add]
  · rw [long]
    exact numbers_eq_iff script
  · rw [long, List.countP_eq_length]
    simp

/-- Whatever is resolved, in a file or in a process, and whatever takes the text: the printer numbers the
addresses in their order, but for those where frames were found at address zero. -/
theorem resolutions_numbered (outside : Surroundings) (options : Options) (path : String)
    (loadBase : Address) (modules : ModuleMap) (addresses : List Address) :
    NumbersFrames addresses (fun sink state =>
        resolveFile outside options path loadBase true sink state addresses) ∧
      NumbersFrames addresses (fun sink state =>
        resolveProcess outside options modules sink state addresses) := by
  constructor
  · exact numbersFrames_of_plays (Resolve.map_address_scriptOf _ _ _ _ _)
      (fun _ member => Resolve.answering_scriptOf member)
      (fun sink state => Resolve.resolveFile_eq_play outside options path loadBase true sink state addresses)
  · have addressed : (Process.scriptUnder outside options []
        (Process.governed modules none addresses)).map Part.address = addresses := by
      rw [Process.map_address_scriptUnder, Process.map_fst_governed]
    exact numbersFrames_of_plays addressed (fun _ member => Resolve.answering_scriptUnder member)
      (fun sink state => Process.resolveProcess_eq_play outside options modules sink state addresses)

def lowSections : List Bytes :=
  [[0x18, 0, 0, 0, 4, 0, 0, 0, 0, 0, 8, 1, 0, 0, 0, 0, 0, 0, 0, 0, 0, 0, 0, 0, 0, 1, 0, 0],
    [1, 0x11, 0, 0x10, 0x17, 0x11, 1, 0x12, 6, 0, 0, 0],
    [0x33, 0, 0, 0, 4, 0, 0x1b, 0, 0, 0, 1, 1, 1, 0xfb, 0xe, 0xd, 0, 1, 1, 1, 1, 0, 0, 0, 1, 0, 0, 1,
      0, 0x61, 0x2e, 0x63, 0, 0, 0, 0, 0,
      0, 9, 2, 0, 0, 0, 0, 0, 0, 0, 0, 1, 2, 0x80, 2, 0, 1, 1]]

def sectionHeader (digits : Bytes) (size place : UInt8) : Bytes :=
  [0x2f] ++ digits ++ List.replicate (7 - digits.length) 0 ++
    [size, 0, 0, 0, 0, 0, 0, 0, size, 0, 0, 0, place, 1, 0, 0] ++ List.replicate 16 0

def lowImage : Bytes :=
  [0x4d, 0x5a] ++ List.replicate 58 0 ++ [64, 0, 0, 0] ++ [0x50, 0x45, 0, 0] ++
    [0x4c, 1, 3, 0, 0, 0, 0, 0, 0x30, 1, 0, 0, 0, 0, 0, 0, 96, 0, 0, 0] ++
    [0x0b, 1] ++ List.replicate 94 0 ++
    sectionHeader [0x34] 28 0x5a ++ sectionHeader [0x31, 0x36] 12 0x76 ++
    sectionHeader [0x33, 0x30] 55 0x82 ++
    [42, 0, 0, 0] ++ Text.Utf8.ofText ".debug_info" ++ [0] ++ Text.Utf8.ofText ".debug_abbrev" ++ [0] ++
    Text.Utf8.ofText ".debug_line" ++ [0] ++ lowSections.flatten

def lowFiles : Surroundings :=
  ⟨(FileTree.ofList [("a.exe", lowImage)]).toFileSystem, ⟨fun _ => none, fun _ => none⟩⟩

def printedOf (addresses : List Address) : String × Nat × Option String :=
  let printed := (resolveFile lowFiles Options.default "a.exe" Address.zero true
    (Sink.printer Output.kept) (start "") addresses).state
  (printed.out, printed.index, printed.error)

theorem kept_takes : Output.kept.Takes :=
  fun _ _ => rfl

/-- Address zero has a frame as the others do; it is printed without a number, and the address behind it has
the number that is due to it. -/
theorem not_numbered_lowImage :
    (resolveFile lowFiles Options.default "a.exe" Address.zero true Sink.collector []
        [⟨0x10⟩, Address.zero, ⟨0x20⟩]).state =
      [⟨⟨0x10⟩, some "a.exe", .resolved ⟨"a.c", 1, 0⟩ none⟩,
        ⟨Address.zero, some "a.exe", .resolved ⟨"a.c", 1, 0⟩ none⟩,
        ⟨⟨0x20⟩, some "a.exe", .resolved ⟨"a.c", 1, 0⟩ none⟩] ∧
      Output.kept.Takes ∧
      printedOf [⟨0x10⟩, Address.zero, ⟨0x20⟩] =
        ("stack 00: 0x0000000000000010 (a.c:1)\n           (a.c:1)\n" ++
          "stack 01: 0x0000000000000020 (a.c:1)\n", 2, none) := by
  refine ⟨?_, kept_takes, ?_⟩
  · decide +kernel
  · decide +kernel

/-- Without address zero every address keeps its place, though the second one is not found. -/
theorem resolutions_numbered_lowImage :
    Output.kept.Takes ∧ ∃ script : Script,
      script.map Part.address = [⟨0x10⟩, ⟨0x2000⟩, ⟨0x20⟩] ∧ (∀ part ∈ script, part.isMerged = false) ∧
        numbers 0 script = [some 0, some 1, some 2] ∧
        printedOf [⟨0x10⟩, ⟨0x2000⟩, ⟨0x20⟩] = (Output.kept.writeAll "" (pages 0 script), 3, none) ∧
        printedOf [⟨0x10⟩, ⟨0x2000⟩, ⟨0x20⟩] =
          ("stack 00: 0x0000000000000010 (a.c:1)\nstack 02: 0x0000000000000020 (a.c:1)\n", 3, none) := by
  obtain ⟨⟨script, addressed, _, _, prints, _, numbered, counted⟩, _⟩ := resolutions_numbered lowFiles
    Options.default "a.exe" Address.zero (Modules.toMap []) [⟨0x10⟩, ⟨0x2000⟩, ⟨0x20⟩]
  have plain : ∀ part ∈ script, part.isMerged = false := by
    intro part member
    have listed : part.address ∈ script.map Part.address := List.mem_map_of_mem member
    rw [addressed] at listed
    have nonzero : ∀ address ∈ [Address.mk 0x10, ⟨0x2000⟩, ⟨0x20⟩], address.isZero = false := by decide
    rw [Part.isMerged, nonzero part.address listed, Bool.false_and]
  have printed := prints Output.kept "" kept_takes
  rw [counted.2 plain] at printed
  refine ⟨kept_takes, script, addressed, plain, numbered.2 plain, ?_, ?_⟩
  · unfold printedOf
    rw [printed]
    rfl
  · decide +kernel

end Printer

end Symbolizer
