import Symbolizer.Modules
import Symbolizer.Resolve

/-!
Resolution of addresses that belong to different modules of a process. Neighbours whose owners share
a base are resolved together against the file of the first; each base is announced at most once. An
address without an owner is reported as not found, without a module.
-/

namespace Symbolizer

namespace Process

def splitRun (modules : ModuleMap) (base : Address) (addresses : List Address) :
    List Address × List Address :=
  let isOwned (address : Address) : Bool := (modules.owner? address).any (·.base == base)
  (addresses.takeWhile isOwned, addresses.dropWhile isOwned)

inductive Batch where
  | orphan (address : Address)
  | run (module : Module) (addresses : List Address)
  deriving DecidableEq, Repr

theorem length_splitRun_le (modules : ModuleMap) (base : Address) (addresses : List Address) :
    (splitRun modules base addresses).2.length ≤ addresses.length :=
  (List.dropWhile_sublist _).length_le

def batches (modules : ModuleMap) : List Address → List Batch
  | [] => []
  | address :: rest =>
    match modules.owner? address with
    | none => .orphan address :: batches modules rest
    | some module =>
      let parts := splitRun modules module.base rest
      .run module (address :: parts.1) :: batches modules parts.2
termination_by addresses => addresses.length
decreasing_by
  · simp
  · have h := length_splitRun_le modules module.base rest
    simp only [List.length_cons]
    omega

def resolveBatches (outside : Surroundings) (options : Options) (sink : Sink σ) :
    List Address → Progress σ → List Batch → Progress σ
  | _, progress, [] => progress
  | announced, progress, .orphan address :: rest =>
    match sink.onFrame progress.state ⟨address, none, .notFound⟩ with
    | (state, .stop) => ⟨state, progress.processed, .stop⟩
    | (state, .more) =>
      resolveBatches outside options sink announced ⟨state, progress.processed + 1, .more⟩ rest
  | announced, progress, .run module addresses :: rest =>
    let announce := !announced.contains module.base
    let outcome :=
      resolveFile outside options module.path module.base announce sink progress.state addresses
    let progress := { outcome with processed := progress.processed + outcome.processed }
    match outcome.flow with
    | .stop => progress
    | .more => resolveBatches outside options sink (module.base :: announced) progress rest

end Process

def resolveProcess (outside : Surroundings) (options : Options) (modules : ModuleMap) (sink : Sink σ)
    (state : σ) (addresses : List Address) : Progress σ :=
  Process.resolveBatches outside options sink [] ⟨state, 0, .more⟩
    (Process.batches modules addresses)

end Symbolizer
