import Symbolizer.Proofs.Stack.Walk

/-!
The frames of a fault. They come from three places, and each takes what the ones before it leave of the
limit. What is captured is the front of one list for all limits: the faulting instruction, the call in front
of the return address on top of the stack, and the calls of the whole chain of frames.
-/

namespace Symbolizer.Stack

variable {context : ExceptionContext} {memory : Memory} {limit : Nat} {visited calls : List Address}

def topCall? (memory : Memory) (stackPointer : Address) : Option Address :=
  match memory.read stackPointer with
  | .ok word => if word = 0 then none else some ⟨word - 1⟩
  | .error _ => none

def allFrames (context : ExceptionContext) (memory : Memory) (calls : List Address) : List Address :=
  context.instructionPointer :: ((topCall? memory context.stackPointer).toList ++ calls)

theorem front_eq_take (room : limit ≠ 0) :
    front context memory limit =
      (context.instructionPointer :: (topCall? memory context.stackPointer).toList).take limit := by
  obtain ⟨spare, rfl⟩ := Nat.exists_eq_succ_of_ne_zero room
  rw [front, topCall?]
  cases memory.read context.stackPointer with
  | error _ => simp
  | ok word =>
    by_cases zero : word = 0
    · simp [zero]
    · cases spare with
      | zero => simp [zero]
      | succ spare => simp [zero, Address.callSite, Address.isZero]

theorem captureException_eq_front (room : limit ≠ 0) :
    ∃ remaining, (front context memory limit).length + remaining = limit ∧
      captureException context memory limit =
        front context memory limit ++ walk memory context.framePointer remaining := by
  have within : (front context memory limit).length ≤ limit := by
    rw [front_eq_take room]
    exact List.length_take_le limit _
  exact ⟨_, Nat.add_sub_of_le within, if_neg room⟩

theorem Climbs.captureException_eq (climbs : Climbs memory context.framePointer visited calls)
    (limit : Nat) : captureException context memory limit = (allFrames context memory calls).take limit := by
  by_cases room : limit = 0
  · rw [room, captureException, if_pos rfl, List.take_zero]
  · obtain ⟨remaining, shared, captured⟩ := captureException_eq_front room
    rw [captured, climbs.walk_eq, allFrames, ← List.cons_append, List.take_append, front_eq_take room]
    rw [front_eq_take room, List.length_take] at shared
    congr 2
    omega

/-- A chain in memory with pointers of some width leaves room for the two frames in front of it. -/
theorem Climbs.length_allFrames_lt (climbs : Climbs memory context.framePointer visited calls)
    (wide : 2 ≤ memory.pointerSize) : (allFrames context memory calls).length < UInt64.size := by
  have top : (topCall? memory context.stackPointer).toList.length ≤ 1 := by
    cases topCall? memory context.stackPointer <;> simp
  have chain : calls.length ≤ UInt64.size - 3 := by
    by_cases none : calls = []
    · rw [none]
      exact Nat.zero_le _
    · have standing := climbs.standing none
      have bound := climbs.length_calls_le
      omega
  have large : 3 < UInt64.size := by decide
  rw [allFrames, List.length_cons, List.length_append]
  omega

/-- For every fault in every memory there is one list for all limits: the faulting instruction, the call on
top of the stack if there is one, and the calls of the climb from the frame pointer. The frames that are
captured, and with them those that are resolved, are the front of this list that the limit allows; a limit
that is large enough gives all of it, and with pointers of two bytes or more the largest word is such a
limit. What the frames in front of the chain leave of the limit is never less than nothing. -/
theorem captureException_eq_take (context : ExceptionContext) (memory : Memory) :
    ∃ visited calls, Climbs memory context.framePointer visited calls ∧
      (∀ limit, captureException context memory limit = (allFrames context memory calls).take limit) ∧
      (∀ limit, (allFrames context memory calls).length ≤ limit →
        captureException context memory limit = allFrames context memory calls) ∧
      (2 ≤ memory.pointerSize → (allFrames context memory calls).length < UInt64.size) ∧
      (∀ limit, limit ≠ 0 → ∃ remaining, (front context memory limit).length + remaining = limit ∧
        captureException context memory limit =
          front context memory limit ++ walk memory context.framePointer remaining) ∧
      ∀ {σ : Type} (outside : Surroundings) (options : Options) (modules : ModuleMap) (sink : Sink σ)
        (state : σ),
        resolveException outside options context memory modules sink state =
          resolveProcess outside options modules sink state
            ((allFrames context memory calls).take options.maxFrames) := by
  obtain ⟨visited, calls, climbs⟩ := exists_climbs memory context.framePointer
  refine ⟨visited, calls, climbs, climbs.captureException_eq, fun limit enough => ?_,
    climbs.length_allFrames_lt, fun limit room => captureException_eq_front room, ?_⟩
  · rw [climbs.captureException_eq, List.take_of_length_le enough]
  · intro σ outside options modules sink state
    rw [resolveException, climbs.captureException_eq]

def leafFault : ExceptionContext :=
  ⟨⟨0x600⟩, ⟨0x28⟩, ⟨0x10⟩⟩

theorem captureException_eq_take_leafFault :
    captureException leafFault towardsTop 3 = [⟨0x600⟩, ⟨0x500⟩, ⟨0x400⟩] ∧
      ∃ calls, captureException leafFault towardsTop 3 = (allFrames leafFault towardsTop calls).take 3 ∧
        captureException leafFault towardsTop (UInt64.size - 1) = allFrames leafFault towardsTop calls ∧
        ∃ remaining, (front leafFault towardsTop 3).length + remaining = 3 ∧
          captureException leafFault towardsTop 3 =
            front leafFault towardsTop 3 ++ walk towardsTop ⟨0x10⟩ remaining := by
  obtain ⟨visited, calls, _, taken, whole, short, shared, _⟩ :=
    captureException_eq_take leafFault towardsTop
  have within := short (by decide)
  exact ⟨by decide, calls, taken 3, whole _ (Nat.le_sub_one_of_lt within), shared 3 (by decide)⟩

end Symbolizer.Stack
