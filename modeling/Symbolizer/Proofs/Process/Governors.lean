import Symbolizer.Process
import Symbolizer.Proofs.Resolve.Groups

/-!
The modules that the addresses of a process are resolved against. Neighbours are handled at once when
their owners share a base, and the first owner of such a run governs all of it. So an address goes to
the file of its own module unless the address in front of it is governed by another module with the
same base. Handling neighbours at once shows in nothing else.
-/

namespace Symbolizer.Process

open Resolve (Answers announcement groupOf sourceOfFile?)

/-- The module that governs an address, behind an address that is governed by `previous`. -/
def governor? (modules : ModuleMap) (previous : Option Module) (address : Address) : Option Module :=
  match modules.owner? address, previous with
  | none, _ => none
  | some own, none => some own
  | some own, some module => if own.base = module.base then some module else some own

def governed (modules : ModuleMap) : Option Module → List Address → List (Address × Option Module)
  | _, [] => []
  | previous, address :: rest =>
    let module := governor? modules previous address
    (address, module) :: governed modules module rest

/-- The reports of an address that is resolved on its own, without an announcement. -/
def answersUnder (outside : Surroundings) (options : Options) (address : Address) :
    Option Module → List FrameReport
  | none => [⟨address, none, .notFound⟩]
  | some module =>
    (resolveFile outside options module.path module.base false Sink.collector [] [address]).state

/-- One part for each address. A base is announced in front of the first address it serves. -/
def scriptUnder (outside : Surroundings) (options : Options) :
    List Address → List (Address × Option Module) → Script
  | _, [] => []
  | announced, (address, none) :: rest =>
    ⟨address, [], answersUnder outside options address none⟩ ::
      scriptUnder outside options announced rest
  | announced, (address, some module) :: rest =>
    ⟨address, if announced.contains module.base then [] else announcement module.path module.base,
        answersUnder outside options address (some module)⟩ ::
      scriptUnder outside options (module.base :: announced) rest

variable {outside : Surroundings} {options : Options} {modules : ModuleMap}

/-! Resolution against one file. -/

theorem answersUnder_some (outside : Surroundings) (options : Options) (address : Address)
    (module : Module) :
    answersUnder outside options address (some module) =
      groupOf module.path module.base (sourceOfFile? outside options module.path) address := by
  rw [answersUnder, Resolve.resolveFile_eq_play,
    Resolve.play_scriptOf Sink.collector_accepting false [] (List.cons_ne_nil _ _), Sink.absorb_collector]
  simp

theorem answers_answersUnder (outside : Surroundings) (options : Options) (address : Address)
    (module : Option Module) : Answers address (answersUnder outside options address module) := by
  cases module with
  | none => exact Resolve.answers_singleton _ _ _ (by simp)
  | some module =>
    rw [answersUnder_some]
    exact Resolve.answers_groupOf _ _ _ _

/-! Runs of neighbours. -/

theorem governed_cons (previous : Option Module) (address : Address) (rest : List Address) :
    governed modules previous (address :: rest) =
      (address, governor? modules previous address) ::
        governed modules (governor? modules previous address) rest := rfl

theorem governor?_none (address : Address) :
    governor? modules none address = modules.owner? address := by
  cases found : modules.owner? address <;> simp [governor?, found]

theorem governed_run {module : Module} {run : List Address} (rest : List Address)
    (owned : ∀ address ∈ run, (modules.owner? address).any (·.base == module.base) = true) :
    governed modules (some module) (run ++ rest) =
      run.map (·, some module) ++ governed modules (some module) rest := by
  induction run with
  | nil => rfl
  | cons address run ih =>
    obtain ⟨here, later⟩ := List.forall_mem_cons.1 owned
    have passes_on : governor? modules (some module) address = some module := by
      cases found : modules.owner? address with
      | none =>
        rw [found] at here
        cases here
      | some own =>
        rw [found] at here
        have same : own.base = module.base := by simpa using here
        simp [governor?, found, same]
    rw [List.cons_append, governed_cons, passes_on, ih later, List.map_cons, List.cons_append]

theorem governed_fresh {module : Module} {rest : List Address}
    (next : ∀ address ∈ rest.head?, (modules.owner? address).any (·.base == module.base) = false) :
    governed modules (some module) rest = governed modules none rest := by
  cases rest with
  | nil => rfl
  | cons address rest =>
    have here := next address rfl
    have starts : governor? modules (some module) address = governor? modules none address := by
      cases found : modules.owner? address with
      | none => simp [governor?, found]
      | some own =>
        rw [found] at here
        have other : own.base ≠ module.base := by simpa using here
        simp [governor?, found, other]
    rw [governed_cons, governed_cons, starts]

theorem scriptUnder_congr {announced others : List Address} (same : ∀ base, base ∈ announced ↔ base ∈ others)
    (pairs : List (Address × Option Module)) :
    scriptUnder outside options announced pairs = scriptUnder outside options others pairs := by
  induction pairs generalizing announced others with
  | nil => rfl
  | cons pair rest ih =>
    obtain ⟨address, module⟩ := pair
    cases module with
    | none => rw [scriptUnder, scriptUnder, ih same]
    | some module =>
      have here : announced.contains module.base = others.contains module.base := by
        rw [Bool.eq_iff_iff, List.contains_iff_mem, List.contains_iff_mem, same]
      have later : ∀ base, base ∈ module.base :: announced ↔ base ∈ module.base :: others := by
        intro base
        rw [List.mem_cons, List.mem_cons, same]
      rw [scriptUnder, scriptUnder, here, ih later]

theorem scriptUnder_announced {announced : List Address} {module : Module}
    (known : module.base ∈ announced) (run : List Address) (rest : List (Address × Option Module)) :
    scriptUnder outside options announced (run.map (·, some module) ++ rest) =
      (run.map fun address => ⟨address, [], answersUnder outside options address (some module)⟩) ++
        scriptUnder outside options announced rest := by
  induction run with
  | nil => rfl
  | cons address run ih =>
    have again : ∀ base, base ∈ module.base :: announced ↔ base ∈ announced := by
      intro base
      rw [List.mem_cons, or_iff_right_of_imp]
      exact fun same => same ▸ known
    rw [List.map_cons, List.cons_append, scriptUnder, scriptUnder_congr again, ih,
      if_pos (List.contains_iff_mem.2 known), List.map_cons, List.cons_append]

/-- A run is what one resolution against its file says of it. -/
theorem scriptUnder_run (announced : List Address) (module : Module) (address : Address)
    (run : List Address) (rest : List (Address × Option Module)) :
    scriptUnder outside options announced ((address, some module) :: run.map (·, some module) ++ rest) =
      Resolve.scriptOf module.path module.base (sourceOfFile? outside options module.path)
          (!announced.contains module.base) (address :: run) ++
        scriptUnder outside options (module.base :: announced) rest := by
  rw [List.cons_append, scriptUnder, scriptUnder_announced List.mem_cons_self, Resolve.scriptOf,
    answersUnder_some, List.cons_append]
  simp only [answersUnder_some]
  cases announced.contains module.base <;> rfl

/-- A resolution over the batches of some addresses plays one part for each address. -/
theorem resolveBatches_eq_play (outside : Surroundings) (options : Options) (modules : ModuleMap)
    (sink : Sink σ) (announced : List Address) (state : σ) (processed : Nat) (addresses : List Address) :
    resolveBatches outside options sink announced ⟨state, processed, .more⟩ (batches modules addresses) =
      sink.play ⟨state, processed, .more⟩
        (scriptUnder outside options announced (governed modules none addresses)) := by
  induction addresses using batches.induct modules generalizing announced state processed with
  | case1 => simp [batches, resolveBatches, governed, scriptUnder, Sink.play]
  | case2 address rest orphan ih =>
    rw [batches, orphan, governed_cons, governor?_none, orphan, scriptUnder]
    simp only [resolveBatches, answersUnder]
    rcases answer : sink.onFrame state ⟨address, none, .notFound⟩ with ⟨next, flow⟩
    cases flow with
    | more =>
      rw [Sink.play_cons_of_more (by exact Sink.feed_cons_of_more answer [])]
      exact ih announced next (processed + 1)
    | stop => rw [Sink.play_cons_of_stop (by exact Sink.feed_cons_of_stop answer [])]
  | case3 address rest module owned parts ih =>
    have whole : parts.1 ++ parts.2 = rest := List.takeWhile_append_dropWhile
    have inside : ∀ other ∈ parts.1, (modules.owner? other).any (·.base == module.base) = true :=
      List.all_eq_true.1 List.all_takeWhile
    have outer : ∀ other ∈ parts.2.head?, (modules.owner? other).any (·.base == module.base) = false := by
      intro other first
      have stops := List.head?_dropWhile_not (fun other => (modules.owner? other).any (·.base == module.base)) rest
      rw [show rest.dropWhile _ = parts.2 from rfl, first] at stops
      exact stops
    have tail : governed modules (some module) rest =
        parts.1.map (·, some module) ++ governed modules none parts.2 := by
      rw [← governed_fresh outer, ← governed_run parts.2 inside, whole]
    rw [batches, owned, governed_cons, governor?_none, owned, tail, ← List.cons_append, scriptUnder_run,
      Sink.play_append, Sink.play_processed_add]
    simp only [resolveBatches, Resolve.resolveFile_eq_play]
    rcases sink.play ⟨state, 0, .more⟩ (Resolve.scriptOf module.path module.base
      (sourceOfFile? outside options module.path) (!announced.contains module.base)
      (address :: parts.1)) with ⟨next, count, flow⟩
    cases flow with
    | more => exact ih (module.base :: announced) next (processed + count)
    | stop => rfl

theorem resolveProcess_eq_play (outside : Surroundings) (options : Options) (modules : ModuleMap)
    (sink : Sink σ) (state : σ) (addresses : List Address) :
    resolveProcess outside options modules sink state addresses =
      sink.play ⟨state, 0, .more⟩
        (scriptUnder outside options [] (governed modules none addresses)) :=
  resolveBatches_eq_play outside options modules sink [] state 0 addresses

/-! The parts of a script. -/

theorem map_fst_governed (modules : ModuleMap) (previous : Option Module) (addresses : List Address) :
    (governed modules previous addresses).map Prod.fst = addresses := by
  induction addresses generalizing previous with
  | nil => rfl
  | cons address rest ih => rw [governed_cons, List.map_cons, ih]

theorem map_address_scriptUnder (announced : List Address) (pairs : List (Address × Option Module)) :
    (scriptUnder outside options announced pairs).map Part.address = pairs.map Prod.fst := by
  induction pairs generalizing announced with
  | nil => rfl
  | cons pair rest ih =>
    obtain ⟨address, module⟩ := pair
    cases module <;> rw [scriptUnder, List.map_cons, List.map_cons, ih]

theorem length_scriptUnder (announced : List Address) (pairs : List (Address × Option Module)) :
    (scriptUnder outside options announced pairs).length = pairs.length := by
  rw [← List.length_map Part.address, map_address_scriptUnder, List.length_map]

theorem resolveProcess_of_accepting {sink : Sink σ} (accepting : sink.Accepting) (state : σ)
    (addresses : List Address) :
    resolveProcess outside options modules sink state addresses =
      ⟨sink.absorb state (scriptUnder outside options [] (governed modules none addresses)).reports,
        addresses.length, .more⟩ := by
  have addressed := congrArg List.length (map_fst_governed modules none addresses)
  rw [List.length_map] at addressed
  rw [resolveProcess_eq_play, Sink.play_of_accepting accepting, length_scriptUnder, addressed, Nat.zero_add]

def noFiles : Surroundings :=
  ⟨⟨fun _ => .error .notFound, fun _ => false⟩, ⟨fun _ => none, fun _ => none⟩⟩

end Symbolizer.Process
