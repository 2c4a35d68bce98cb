import Symbolizer.Proofs.Dwarf.Reading
import Symbolizer.Stack

/-!
Walks along chains of frames. A chain is climbed from a frame pointer as long as there is a frame and its
link leads to a higher address; every frame on the way tells of a call. Since the pointers rise, every climb
ends, in whatever memory, and a walk is the front of the climb that its limit allows.
-/

namespace Symbolizer

/-- A frame at the pointer: a link and, one pointer behind it, a return address, both readable and neither
of them zero. The call is the byte in front of the return address. All sums are sums of numbers, so nothing
wraps. -/
structure Memory.FrameAt (memory : Memory) (pointer link call : Address) : Prop where
  standing : pointer.value ≠ 0
  links : memory.read pointer = .ok link.value
  linked : link.value ≠ 0
  returns : ∃ slot word, slot.value.toNat = pointer.value.toNat + memory.pointerSize ∧
    memory.read slot = .ok word ∧ word.toNat = call.value.toNat + 1

namespace Stack

/-- The frame pointers that are visited from the first one on, and the calls that are found there. -/
inductive Climbs (memory : Memory) : Address → List Address → List Address → Prop
  | broken {pointer : Address} (nowhere : ∀ link call, ¬memory.FrameAt pointer link call) :
      Climbs memory pointer [pointer] []
  | last {pointer link call : Address} (frame : memory.FrameAt pointer link call)
      (falls : ¬pointer < link) : Climbs memory pointer [pointer] [call]
  | onward {pointer link call : Address} {visited calls : List Address}
      (frame : memory.FrameAt pointer link call) (rises : pointer < link)
      (rest : Climbs memory link visited calls) :
      Climbs memory pointer (pointer :: visited) (call :: calls)

variable {memory : Memory} {pointer link call start : Address} {visited calls : List Address}

/-! One frame. -/

theorem callSite_eq_iff {word : UInt64} (nonzero : word ≠ 0) :
    Address.callSite ⟨word⟩ = call ↔ word.toNat = call.value.toNat + 1 := by
  have apart : word.toNat ≠ 0 := fun zero => nonzero (UInt64.toNat_inj.1 zero)
  have least : 1 ≤ word := UInt64.le_iff_toNat_le.2 (Nat.one_le_iff_ne_zero.2 apart)
  have below : (word - 1).toNat = word.toNat - 1 := UInt64.toNat_sub_of_le word 1 least
  have stepped : Address.callSite ⟨word⟩ = ⟨word - 1⟩ := by
    simp [Address.callSite, Address.isZero, nonzero]
  obtain ⟨value⟩ := call
  show _ ↔ word.toNat = value.toNat + 1
  rw [stepped, Address.mk.injEq, ← UInt64.toNat_inj, below]
  omega

theorem frameWords?_eq_some_iff {next word : UInt64} :
    frameWords? memory pointer = some (next, word) ↔
      pointer.value ≠ 0 ∧ memory.read pointer = .ok next ∧
        pointer.value.toNat + memory.pointerSize < UInt64.size ∧
        memory.read ⟨pointer.value + UInt64.ofNat memory.pointerSize⟩ = .ok word ∧ next ≠ 0 ∧
        word ≠ 0 := by
  simp only [frameWords?, guard, Option.bind_eq_bind, Option.bind_eq_some_iff, toOption_eq_some_iff,
    Address.isZero]
  simp

/-- A slot that is no more than one pointer behind needs no wrapping sum. -/
theorem slot_eq_iff {slot : Address} :
    slot.value.toNat = pointer.value.toNat + memory.pointerSize ↔
      pointer.value.toNat + memory.pointerSize < UInt64.size ∧
        slot = ⟨pointer.value + UInt64.ofNat memory.pointerSize⟩ := by
  obtain ⟨value⟩ := slot
  have bounded := value.toNat_lt_size
  rw [Address.mk.injEq, ← UInt64.toNat_inj, UInt64.toNat_add, UInt64.toNat_ofNat', Nat.add_mod_mod]
  constructor
  · intro same
    have within : pointer.value.toNat + memory.pointerSize < UInt64.size := same ▸ bounded
    exact ⟨within, same.trans (Nat.mod_eq_of_lt within).symm⟩
  · rintro ⟨within, same⟩
    exact same.trans (Nat.mod_eq_of_lt within)

theorem frameAt_iff :
    memory.FrameAt pointer link call ↔
      ∃ word, frameWords? memory pointer = some (link.value, word) ∧ Address.callSite ⟨word⟩ = call := by
  constructor
  · rintro ⟨standing, links, linked, slot, word, behind, returns, stepped⟩
    obtain ⟨within, rfl⟩ := slot_eq_iff.1 behind
    have nonzero : word ≠ 0 := by
      rintro rfl
      exact Nat.succ_ne_zero _ stepped.symm
    exact ⟨word, frameWords?_eq_some_iff.2 ⟨standing, links, within, returns, linked, nonzero⟩,
      (callSite_eq_iff nonzero).2 stepped⟩
  · rintro ⟨word, found, stepped⟩
    obtain ⟨standing, links, within, returns, linked, nonzero⟩ := frameWords?_eq_some_iff.1 found
    exact ⟨standing, links, linked, _, word, slot_eq_iff.2 ⟨within, rfl⟩, returns,
      (callSite_eq_iff nonzero).1 stepped⟩

theorem frameWords?_eq_none_iff :
    frameWords? memory pointer = none ↔ ∀ link call, ¬memory.FrameAt pointer link call := by
  constructor
  · intro missing link call frame
    obtain ⟨word, found, _⟩ := frameAt_iff.1 frame
    rw [missing] at found
    cases found
  · intro nowhere
    cases found : frameWords? memory pointer with
    | none => rfl
    | some words => exact absurd (frameAt_iff.2 ⟨words.2, found, rfl⟩) (nowhere ⟨words.1⟩ _)

theorem within_of_frameAt (frame : memory.FrameAt pointer link call) :
    pointer.value.toNat + memory.pointerSize < UInt64.size := by
  obtain ⟨slot, _, behind, _⟩ := frame.returns
  exact (slot_eq_iff.1 behind).1

/-! A step of the walk, for each way to go on. -/

theorem walk_broken (nowhere : ∀ link call, ¬memory.FrameAt pointer link call) (limit : Nat) :
    walk memory pointer (limit + 1) = [] := by
  rw [walk, frameWords?_eq_none_iff.2 nowhere]

theorem walk_last (frame : memory.FrameAt pointer link call) (falls : ¬pointer < link) (limit : Nat) :
    walk memory pointer (limit + 1) = [call] := by
  obtain ⟨word, found, rfl⟩ := frameAt_iff.1 frame
  rw [walk, found]
  exact if_neg falls

theorem walk_onward (frame : memory.FrameAt pointer link call) (rises : pointer < link) (limit : Nat) :
    walk memory pointer (limit + 1) = call :: walk memory link limit := by
  obtain ⟨word, found, rfl⟩ := frameAt_iff.1 frame
  rw [walk, found]
  exact if_pos rises

/-! Climbs. -/

theorem toNat_lt_of_lt {low high : Address} (below : low < high) :
    low.value.toNat < high.value.toNat ∧ high.value.toNat < UInt64.size :=
  ⟨UInt64.lt_iff_toNat_lt.1 below, high.value.toNat_lt_size⟩

/-- Every chain has a climb: the distance to the top of the address space falls with each frame. -/
theorem exists_climbs (memory : Memory) (start : Address) :
    ∃ visited calls, Climbs memory start visited calls := by
  induction distance : UInt64.size - start.value.toNat using Nat.strong_induction_on generalizing start with
  | _ height ih =>
    by_cases nowhere : ∀ link call, ¬memory.FrameAt start link call
    · exact ⟨_, _, .broken nowhere⟩
    · push Not at nowhere
      obtain ⟨link, call, frame⟩ := nowhere
      by_cases rises : start < link
      · have nearer : UInt64.size - link.value.toNat < height := by
          have bounds := toNat_lt_of_lt rises
          omega
        obtain ⟨visited, calls, rest⟩ := ih _ nearer link rfl
        exact ⟨_, _, .onward frame rises rest⟩
      · exact ⟨_, _, .last frame rises⟩

theorem Climbs.le_of_mem (climbs : Climbs memory start visited calls) (member : pointer ∈ visited) :
    start ≤ pointer := by
  induction climbs with
  | broken => exact List.mem_singleton.1 member ▸ UInt64.le_refl _
  | last => exact List.mem_singleton.1 member ▸ UInt64.le_refl _
  | onward _ rises _ ih =>
    rcases List.mem_cons.1 member with rfl | later
    · exact UInt64.le_refl _
    · exact UInt64.le_trans (UInt64.le_of_lt rises) (ih later)

theorem Climbs.pairwise (climbs : Climbs memory start visited calls) : visited.Pairwise (· < ·) := by
  induction climbs with
  | broken => exact List.pairwise_singleton _ _
  | last => exact List.pairwise_singleton _ _
  | onward _ rises rest ih =>
    exact ih.cons fun pointer later => UInt64.lt_of_lt_of_le rises (rest.le_of_mem later)

theorem Climbs.length_visited_le (climbs : Climbs memory start visited calls) :
    visited.length ≤ UInt64.size - start.value.toNat := by
  induction climbs with
  | @broken pointer =>
    have bounded := pointer.value.toNat_lt_size
    rw [List.length_singleton]
    omega
  | @last pointer =>
    have bounded := pointer.value.toNat_lt_size
    rw [List.length_singleton]
    omega
  | onward _ rises _ ih =>
    have bounds := toNat_lt_of_lt rises
    rw [List.length_cons]
    omega

theorem Climbs.length_calls_le (climbs : Climbs memory start visited calls) :
    calls.length ≤ UInt64.size - memory.pointerSize - start.value.toNat := by
  induction climbs with
  | broken => exact Nat.zero_le _
  | last frame =>
    have within := within_of_frameAt frame
    rw [List.length_singleton]
    omega
  | onward frame rises _ ih =>
    have within := within_of_frameAt frame
    have bounds := toNat_lt_of_lt rises
    rw [List.length_cons]
    omega

theorem Climbs.standing (climbs : Climbs memory start visited calls) (found : calls ≠ []) :
    start.value.toNat ≠ 0 := by
  intro zero
  have null : start.value = 0 := UInt64.toNat_inj.1 zero
  cases climbs with
  | broken => exact found rfl
  | last frame => exact frame.standing null
  | onward frame => exact frame.standing null

theorem Climbs.frameAt_of_getElem? (climbs : Climbs memory start visited calls) {index : Nat}
    (found : calls[index]? = some call) :
    ∃ pointer link, visited[index]? = some pointer ∧ memory.FrameAt pointer link call := by
  induction climbs generalizing index with
  | broken => cases found
  | last frame =>
    cases index with
    | zero => exact ⟨_, _, rfl, Option.some.inj found ▸ frame⟩
    | succ => cases found
  | onward frame _ _ ih =>
    cases index with
    | zero => exact ⟨_, _, rfl, Option.some.inj found ▸ frame⟩
    | succ index => exact ih found

theorem Climbs.walk_eq (climbs : Climbs memory start visited calls) (limit : Nat) :
    walk memory start limit = calls.take limit := by
  induction climbs generalizing limit with
  | broken nowhere =>
    cases limit with
    | zero => rfl
    | succ limit => rw [walk_broken nowhere, List.take_nil]
  | last frame falls =>
    cases limit with
    | zero => rfl
    | succ limit => rw [walk_last frame falls, List.take_succ_cons, List.take_nil]
  | onward frame rises _ ih =>
    cases limit with
    | zero => rfl
    | succ limit => rw [walk_onward frame rises, ih, List.take_succ_cons]

/-- From every frame pointer in every memory there is one climb for all limits. Its pointers rise and are no
more than there are addresses from the first one on, and each call is found in a frame at the pointer in its
place. A walk is the front of these calls that its limit allows; so a smaller limit gives the front of the
same walk. -/
theorem walk_climbs (memory : Memory) (start : Address) :
    ∃ visited calls, Climbs memory start visited calls ∧ visited.Pairwise (· < ·) ∧
      visited.length ≤ UInt64.size - start.value.toNat ∧
      (∀ (index : Nat) (call : Address), calls[index]? = some call →
        ∃ pointer link, visited[index]? = some pointer ∧ memory.FrameAt pointer link call) ∧
      ∀ limit, walk memory start limit = calls.take limit ∧ (walk memory start limit).length ≤ limit ∧
        ∀ shorter ≤ limit, walk memory start shorter = (walk memory start limit).take shorter := by
  obtain ⟨visited, calls, climbs⟩ := exists_climbs memory start
  refine ⟨visited, calls, climbs, climbs.pairwise, climbs.length_visited_le,
    fun _ _ found => climbs.frameAt_of_getElem? found, fun limit => ⟨climbs.walk_eq limit, ?_, ?_⟩⟩
  · rw [climbs.walk_eq]
    exact List.length_take_le limit calls
  · intro shorter less
    rw [climbs.walk_eq, climbs.walk_eq, List.take_take, Nat.min_eq_left less]

/-- Three frames. The link of the second leads to the last word of the address space, whose slot would lie
behind the top. -/
def towardsTop : Memory where
  pointerSize := 8
  read address :=
    match address.value.toNat with
    | 0x10 => .ok 0x20
    | 0x18 => .ok 0x401
    | 0x20 => .ok 0xfffffffffffffff8
    | 0x28 => .ok 0x501
    | 0xfffffffffffffff8 => .ok 0x30
    | 0 => .ok 0x601
    | _ => .error (.unreadableMemory address)

/-- The climb ends below the top, though the word at address zero can be read. -/
theorem walk_climbs_towardsTop :
    ∃ visited, Climbs towardsTop ⟨0x10⟩ visited [⟨0x400⟩, ⟨0x500⟩] ∧ visited.Pairwise (· < ·) ∧
      walk towardsTop ⟨0x10⟩ 1 = (walk towardsTop ⟨0x10⟩ 3).take 1 := by
  obtain ⟨visited, calls, climbs, rise, _, _, limited⟩ := walk_climbs towardsTop ⟨0x10⟩
  obtain ⟨front, _, prefixes⟩ := limited 3
  have walked : walk towardsTop ⟨0x10⟩ 3 = [⟨0x400⟩, ⟨0x500⟩] := by decide
  have whole : calls = [⟨0x400⟩, ⟨0x500⟩] := by
    rw [walked] at front
    have few : 2 = min 3 calls.length := by simpa using congrArg List.length front
    rw [List.take_of_length_le (by omega)] at front
    exact front.symm
  subst whole
  exact ⟨visited, climbs, rise, prefixes 1 (by decide)⟩

end Stack

end Symbolizer
