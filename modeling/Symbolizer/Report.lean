import Symbolizer.Address
import Symbolizer.Symbol
import Symbolizer.Text.Utf16

/-!
Reports, one for each logical frame. A report that carries no source line can still be read as a
number: every other kind has a negative code of its own, which no line can be.
-/

namespace Symbolizer

inductive Resolution where
  | baseAddress
  | notFound
  | noDebugSymbols
  | noSourceFile
  | resolved (location : SourceLocation) (function : Option SymbolName)
  deriving DecidableEq, Repr

structure FrameReport where
  /-- The caller's address, or zero in a row that continues an inline chain. -/
  address : Address
  module : Option String
  resolution : Resolution
  deriving DecidableEq, Repr

namespace Resolution

def lineOrCode : Resolution → Int
  | .baseAddress => -1
  | .notFound => -2
  | .noDebugSymbols => -3
  | .noSourceFile => -4
  | .resolved location _ => location.line.toNat

def column : Resolution → UInt32
  | .resolved location _ => location.column
  | _ => 0

def function? : Resolution → Option SymbolName
  | .resolved _ function => function
  | _ => none

end Resolution

namespace FrameReport

def lineOrCode (report : FrameReport) : Int :=
  report.resolution.lineOrCode

def fileName? (report : FrameReport) : Option String :=
  match report.resolution with
  | .resolved location _ => some location.file
  | _ => report.module

def column (report : FrameReport) : UInt32 :=
  report.resolution.column

def function? (report : FrameReport) : Option SymbolName :=
  report.resolution.function?

def functionName? (report : FrameReport) : Option String :=
  report.function?.map SymbolName.display

def isContinuation (report : FrameReport) : Bool :=
  match report.resolution with
  | .resolved _ _ => report.address.isZero
  | .noSourceFile => report.address.isZero
  | _ => false

end FrameReport

structure EncodedFrame (α : Type) where
  address : UInt64
  fileName : Option (List α)
  lineOrCode : Int
  function : Option (List α)
  column : UInt32
  deriving DecidableEq, Repr

def FrameReport.encoded (encode : String → List α) (report : FrameReport) : EncodedFrame α :=
  { address := report.address.value
    fileName := report.fileName?.map encode
    lineOrCode := report.lineOrCode
    function := report.functionName?.map encode
    column := report.column }

def FrameReport.narrow (report : FrameReport) : EncodedFrame UInt8 :=
  report.encoded Text.Utf8.ofText

def FrameReport.wide (report : FrameReport) : EncodedFrame UInt16 :=
  report.encoded Text.Utf16.ofText

end Symbolizer
