import Symbolizer.Sink

/-!
The printer of frames: one line for each, with a number for every frame that does not continue an
inline chain. An address that is not found prints nothing and keeps its number. A write that fails
stops the run and is kept until the end.
-/

namespace Symbolizer

structure Output (ω : Type) where
  write : ω → String → ω × Option String
  flush : ω → Option String

namespace Output

def kept : Output String :=
  ⟨fun text more => (text ++ more, none), fun _ => none⟩

def broken (message : String) : Output String :=
  ⟨fun text _ => (text, some message), fun _ => none⟩

end Output

structure Printer (ω : Type) where
  out : ω
  /-- The number of the next frame. -/
  index : Nat
  error : Option String
  deriving Repr

namespace Printer

def start (out : ω) : Printer ω :=
  ⟨out, 0, none⟩

def isSilent (report : FrameReport) : Bool :=
  match report.resolution with
  | .baseAddress | .notFound => true
  | _ => false

def indexAfter (index : Nat) (report : FrameReport) : Nat :=
  if report.resolution = .baseAddress || report.isContinuation then index else index + 1

def lineStart (index : Nat) (report : FrameReport) : String :=
  if report.isContinuation then "          "
  else "stack " ++ Text.zeroPadded 2 (Text.decimalDigits index) ++ ": " ++ report.address.display

def detail (report : FrameReport) : String :=
  match report.resolution with
  | .resolved location _ => location.file ++ ":" ++ Text.decimal location.line.toNat
  | .noSourceFile => report.fileName?.getD "" ++ ": no source file"
  | _ => report.fileName?.getD "" ++ ": no debug symbols"

def line (index : Nat) (report : FrameReport) : String :=
  let function := (report.functionName?.map fun name => " [" ++ name ++ "]").getD ""
  lineStart index report ++ " (" ++ detail report ++ ")" ++ function ++ "\n"

def print (output : Output ω) (printer : Printer ω) (report : FrameReport) : Printer ω × Flow :=
  let index := indexAfter printer.index report
  if isSilent report then ({ printer with index }, .more)
  else
    match output.write printer.out (line printer.index report) with
    | (out, none) => ({ printer with out, index }, .more)
    | (out, some error) => (⟨out, index, some error⟩, .stop)

def finish (output : Output ω) (printer : Printer ω) : Option String :=
  printer.error.or (output.flush printer.out)

end Printer

def Sink.printer (output : Output ω) : Sink (Printer ω) :=
  ⟨Printer.print output⟩

end Symbolizer
