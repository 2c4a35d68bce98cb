import Symbolizer.Memory
import Symbolizer.Process

/-!
Frames taken from a stack. Each frame of a frame-pointer chain holds the next frame pointer and a
return address behind it. The walk ends at an unreadable or zero word, when the chain stops climbing
or at its limit.
-/

namespace Symbolizer

structure ExceptionContext where
  instructionPointer : Address
  stackPointer : Address
  framePointer : Address
  deriving DecidableEq, Repr

namespace Stack

/-- The two words of a frame, when both can be read and neither is zero. The second word may not lie
behind the top of the address space. -/
def frameWords? (memory : Memory) (frame : Address) : Option (UInt64 × UInt64) := do
  guard !frame.isZero
  let next ← (memory.read frame).toOption
  guard (frame.value.toNat + memory.pointerSize < UInt64.size)
  let slot : Address := ⟨frame.value + UInt64.ofNat memory.pointerSize⟩
  let returnAddress ← (memory.read slot).toOption
  guard (next ≠ 0 ∧ returnAddress ≠ 0)
  return (next, returnAddress)

/-- Return addresses, each moved back into its call. A chain that climbs must end at the top of the
address space. -/
def walk (memory : Memory) (frame : Address) (limit : Nat) : List Address :=
  match limit with
  | 0 => []
  | limit + 1 =>
    match frameWords? memory frame with
    | none => []
    | some (next, returnAddress) =>
      let call := Address.callSite ⟨returnAddress⟩
      if frame.value < next then call :: walk memory ⟨next⟩ limit else [call]

/-- What stands in front of the chain: the faulting instruction and, while the limit has room for it, the
return address on top of the stack. -/
def front (context : ExceptionContext) (memory : Memory) (limit : Nat) : List Address :=
  let frames := [context.instructionPointer]
  match memory.read context.stackPointer with
  | .ok top =>
    if top ≠ 0 ∧ frames.length < limit then frames ++ [Address.callSite ⟨top⟩] else frames
  | .error _ => frames

/-- The frames of a fault. The chain gets what the frames in front of it leave of the limit. -/
def captureException (context : ExceptionContext) (memory : Memory) (limit : Nat) : List Address :=
  if limit = 0 then []
  else
    let frames := front context memory limit
    frames ++ walk memory context.framePointer (limit - frames.length)

end Stack

def resolveException (outside : Surroundings) (options : Options) (context : ExceptionContext)
    (memory : Memory) (modules : ModuleMap) (sink : Sink σ) (state : σ) : Progress σ :=
  resolveProcess outside options modules sink state
    (Stack.captureException context memory options.maxFrames)

end Symbolizer
