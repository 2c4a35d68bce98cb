import Symbolizer.Proofs.Sink.Accepting
import Symbolizer.Proofs.Text.Utf16
import Symbolizer.Proofs.Text.Utf8

/-!
The two views that callbacks have of a report. One gets its texts as bytes, the other as UTF-16 units out of
buffers that are never thrown away. Whatever reports came before, both see the same texts.
-/

namespace Symbolizer

/-- The bytes are the UTF-8 encoding of a text, and the units are the UTF-16 encoding of the same text. -/
structure SameText (bytes : List UInt8) (units : List UInt16) : Prop where
  spelled : Text.Utf8.encode (Text.Utf8.decode bytes) = bytes
  transcoded : units = Text.Utf16.encode (Text.Utf8.decode bytes)
  readBack : Text.Utf16.decode units = Text.Utf8.decode bytes

structure SameView (narrow : EncodedFrame UInt8) (wide : EncodedFrame UInt16) : Prop where
  address : narrow.address = wide.address
  lineOrCode : narrow.lineOrCode = wide.lineOrCode
  column : narrow.column = wide.column
  fileName : Option.Rel SameText narrow.fileName wide.fileName
  function : Option.Rel SameText narrow.function wide.function

theorem sameText_ofText (text : String) : SameText (Text.Utf8.ofText text) (Text.Utf16.ofText text) := by
  have read : Text.Utf8.decode (Text.Utf8.ofText text) = text.toList := Text.Utf8.decode_encode text.toList
  constructor
  · rw [read, Text.Utf8.ofText]
  · rw [read, Text.Utf16.ofText]
  · rw [read, Text.Utf16.ofText, Text.Utf16.decode_encode]

theorem sameText_map (text : Option String) :
    Option.Rel SameText (text.map Text.Utf8.ofText) (text.map Text.Utf16.ofText) := by
  cases text with
  | none => exact .none
  | some text => exact .some (sameText_ofText text)

theorem sameView_of_report (report : FrameReport) : SameView report.narrow report.wide where
  address := rfl
  lineOrCode := rfl
  column := rfl
  fileName := sameText_map report.fileName?
  function := sameText_map report.functionName?

namespace Sink

variable {σ τ α : Type}

def noting (callback : σ → α → σ × Flow) (held : σ × List α) (shown : α) : (σ × List α) × Flow :=
  (((callback held.1 shown).1, held.2 ++ [shown]), (callback held.1 shown).2)

def narrowShown (callback : σ → EncodedFrame UInt8 → σ × Flow) (state : σ)
    (reports : List FrameReport) : List (EncodedFrame UInt8) :=
  ((narrow (noting callback)).absorb (state, []) reports).2

/-- The same for a callback behind buffers, which may hold anything at first. -/
def wideShown (callback : σ → EncodedFrame UInt16 → σ × Flow) (held : Buffered σ)
    (reports : List FrameReport) : List (EncodedFrame UInt16) :=
  ((wide (noting callback)).absorb ⟨(held.state, []), held.fileName, held.function⟩ reports).state.2

/-! One report. -/

theorem fill_eq (buffer : List UInt16) (text : Option String) :
    (if (fill buffer text).2 then some (fill buffer text).1 else none) = text.map Text.Utf16.ofText := by
  cases text with
  | none => rfl
  | some text => rfl

theorem wide_onFrame (callback : σ → EncodedFrame UInt16 → σ × Flow) (held : Buffered σ)
    (report : FrameReport) :
    (wide callback).onFrame held report =
      (⟨(callback held.state report.wide).1, (fill held.fileName report.fileName?).1,
          (fill held.function report.functionName?).1⟩, (callback held.state report.wide).2) := by
  simp only [wide, fill_eq, FrameReport.wide, FrameReport.encoded]

/-! All reports. -/

theorem absorb_narrow (callback : σ → EncodedFrame UInt8 → σ × Flow)
    (held : σ × List (EncodedFrame UInt8)) (reports : List FrameReport) :
    ((narrow (noting callback)).absorb held reports).2 = held.2 ++ reports.map FrameReport.narrow := by
  induction reports generalizing held with
  | nil => simp
  | cons report rest ih =>
    rw [absorb, List.foldl_cons, ← absorb, ih]
    simp [narrow, noting]

theorem absorb_wide (callback : σ → EncodedFrame UInt16 → σ × Flow)
    (held : Buffered (σ × List (EncodedFrame UInt16))) (reports : List FrameReport) :
    ((wide (noting callback)).absorb held reports).state.2 =
      held.state.2 ++ reports.map FrameReport.wide := by
  induction reports generalizing held with
  | nil => simp
  | cons report rest ih =>
    rw [absorb, List.foldl_cons, ← absorb, ih, wide_onFrame]
    simp [noting]

/-- Whatever the callbacks do and whatever the buffers held before, both are shown every report once and in
order, each with the texts of that report, and the two views of it agree. -/
theorem wideShown_narrowShown (first : σ → EncodedFrame UInt8 → σ × Flow)
    (second : τ → EncodedFrame UInt16 → τ × Flow) (state : σ) (held : Buffered τ)
    (reports : List FrameReport) :
    narrowShown first state reports = reports.map FrameReport.narrow ∧
      wideShown second held reports = reports.map FrameReport.wide ∧
      List.Forall₂ SameView (narrowShown first state reports) (wideShown second held reports) := by
  have bytes : narrowShown first state reports = reports.map FrameReport.narrow :=
    (absorb_narrow first (state, []) reports).trans (List.nil_append _)
  have units : wideShown second held reports = reports.map FrameReport.wide :=
    (absorb_wide second _ reports).trans (List.nil_append _)
  refine ⟨bytes, units, ?_⟩
  rw [bytes, units, List.forall₂_map_left_iff, List.forall₂_map_right_iff, List.forall₂_same]
  exact fun report _ => sameView_of_report report

end Sink

end Symbolizer
