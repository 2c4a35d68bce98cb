import Symbolizer.Report

/-!
Receivers of reports. A sink has a state; each report changes the state and answers whether to go
on. A run keeps what it has done so far together with the state, and stops for good at the first
report that was not answered with a wish for more.
-/

namespace Symbolizer

inductive Flow where
  | more
  | stop
  deriving DecidableEq, Repr

structure Sink (σ : Type) where
  onFrame : σ → FrameReport → σ × Flow

namespace Sink

def feed (sink : Sink σ) : σ → List FrameReport → σ × Flow
  | state, [] => (state, .more)
  | state, report :: rest =>
    match sink.onFrame state report with
    | (state, .more) => sink.feed state rest
    | (state, .stop) => (state, .stop)

def collector : Sink (List FrameReport) :=
  ⟨fun seen report => (seen ++ [report], .more)⟩

/-- Keeps what it is shown and stops from the given one on. -/
def keeping (stopAfter : Option Nat) (seen : List α) (shown : α) : List α × Flow :=
  let seen := seen ++ [shown]
  (seen, if stopAfter.any (· ≤ seen.length) then .stop else .more)

def limited (stopAfter : Option Nat) : Sink (List FrameReport) :=
  ⟨keeping stopAfter⟩

def narrow (callback : σ → EncodedFrame UInt8 → σ × Flow) : Sink σ :=
  ⟨fun state report => callback state report.narrow⟩

/-- The state of a callback and the buffers that texts are encoded into. They stay for the next report. -/
structure Buffered (σ : Type) where
  state : σ
  fileName : List UInt16
  function : List UInt16

def Buffered.start (state : σ) : Buffered σ :=
  ⟨state, [], []⟩

/-- The buffer behind a text, if there is one, and whether there is. Without a text the buffer keeps what it
holds. -/
def fill (buffer : List UInt16) : Option String → List UInt16 × Bool
  | some text => (Text.Utf16.overwrite buffer text, true)
  | none => (buffer, false)

def wide (callback : σ → EncodedFrame UInt16 → σ × Flow) : Sink (Buffered σ) :=
  ⟨fun held report =>
    let (fileName, hasFileName) := fill held.fileName report.fileName?
    let (function, hasFunction) := fill held.function report.functionName?
    let (state, flow) := callback held.state
      { address := report.address.value
        fileName := if hasFileName then some fileName else none
        lineOrCode := report.lineOrCode
        function := if hasFunction then some function else none
        column := report.column }
    (⟨state, fileName, function⟩, flow)⟩

end Sink

structure Progress (σ : Type) where
  state : σ
  /-- Addresses all of whose reports were taken. -/
  processed : Nat
  flow : Flow

end Symbolizer
