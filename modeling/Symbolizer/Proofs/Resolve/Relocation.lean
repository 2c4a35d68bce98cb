import Symbolizer.Proofs.Resolve.Groups

/-!
Resolution does not depend on where an image was loaded. The delta takes an address at some offset from
the load base to the same offset from the declared base, whichever of the two is higher, because every
step counts modulo 2^64. So what is said of an offset is the same for every load base, and only the
addresses in front of it move.
-/

namespace Symbolizer

def Address.plus (base : Address) (offset : UInt64) : Address :=
  ⟨base.value + offset⟩

def FrameReport.content (report : FrameReport) : Option String × Resolution :=
  (report.module, report.resolution)

namespace Resolve

/-- The reports of an address that has moved. Only the first of them has an address to move. -/
def moved (distance : UInt64) : List FrameReport → List FrameReport
  | [] => []
  | first :: later => { first with address := first.address.plus distance } :: later

/-! Addresses. -/

theorem plus_moved (first second : Address) (offset : UInt64) :
    (first.plus offset).plus (second.value - first.value) = second.plus offset := by
  have sum : first.value + offset + (second.value - first.value) = second.value + offset := by
    calc first.value + offset + (second.value - first.value)
      _ = second.value - first.value + first.value + offset := by ac_rfl
      _ = second.value + offset := by rw [UInt64.sub_add_cancel]
  exact congrArg Address.mk sum

theorem toUInt64_normalizationDelta {declared : UInt64} (nonzero : declared ≠ 0) {loadBase : Address}
    (loaded : loadBase ≠ Address.zero) :
    (normalizationDelta (some declared) loadBase).toUInt64 = declared - loadBase.value := by
  have base : ¬(declared = 0 ∨ loadBase.isZero = true) := by
    rintro (zero | zero)
    · exact nonzero zero
    · exact loaded (congrArg Address.mk (beq_iff_eq.1 zero))
  simp only [normalizationDelta, if_neg base, UInt64.toUInt64_toInt64]

theorem plus_offsetBy {declared : UInt64} (nonzero : declared ≠ 0) {loadBase : Address}
    (loaded : loadBase ≠ Address.zero) (offset : UInt64) :
    (loadBase.plus offset).offsetBy (normalizationDelta (some declared) loadBase) =
      (Address.mk declared).plus offset := by
  rw [Address.offsetBy, toUInt64_normalizationDelta nonzero loaded]
  exact plus_moved loadBase ⟨declared⟩ offset

theorem offsetBy_unloaded (declared : Option UInt64) (address : Address) :
    address.offsetBy (normalizationDelta declared Address.zero) = address := by
  have delta : normalizationDelta declared Address.zero = 0 := by
    cases declared <;> simp [normalizationDelta, Address.isZero, Address.zero]
  rw [delta]
  exact congrArg Address.mk (UInt64.add_zero address.value)

/-! Groups. -/

theorem moved_reportsOfLookup (module : String) (address : Address) (distance : UInt64) (found : Lookup) :
    moved distance (reportsOfLookup module address found) =
      reportsOfLookup module (address.plus distance) found := by
  cases found with
  | notFound => rfl
  | found frames => cases frames <;> rfl

theorem moved_content (distance : UInt64) (group : List FrameReport) :
    (moved distance group).map FrameReport.content = group.map FrameReport.content := by
  cases group <;> rfl

/-- Two addresses that the deltas of their load bases take to one place have the same reports, each
group with the address it was asked for. -/
theorem groupOf_moved {module : String} {source : Option DebugSource} {first second : Address}
    {address other : Address}
    (meet : ∀ held ∈ source, address.offsetBy (normalizationDelta held.declaredBase first) =
      other.offsetBy (normalizationDelta held.declaredBase second))
    {distance : UInt64} (apart : address.plus distance = other) :
    groupOf module second source other = moved distance (groupOf module first source address) := by
  cases source with
  | none => rw [← apart]; rfl
  | some held =>
    have same := meet held rfl
    simp only [groupOf, moved_reportsOfLookup, apart, same]

variable {declared : UInt64} {source : Option DebugSource}

theorem groupOf_relocated (declares : ∀ held ∈ source, held.declaredBase = some declared)
    (nonzero : declared ≠ 0) (module : String) {first second : Address}
    (first_loaded : first ≠ Address.zero) (second_loaded : second ≠ Address.zero) (offset : UInt64) :
    groupOf module second source (second.plus offset) =
      moved (second.value - first.value) (groupOf module first source (first.plus offset)) := by
  refine groupOf_moved (fun held member => ?_) (plus_moved first second offset)
  rw [declares held member, plus_offsetBy nonzero first_loaded, plus_offsetBy nonzero second_loaded]

theorem groupOf_unloaded (declares : ∀ held ∈ source, held.declaredBase = some declared)
    (nonzero : declared ≠ 0) (module : String) {loadBase : Address} (loaded : loadBase ≠ Address.zero)
    (offset : UInt64) :
    groupOf module Address.zero source ((Address.mk declared).plus offset) =
      moved (declared - loadBase.value) (groupOf module loadBase source (loadBase.plus offset)) := by
  refine groupOf_moved (fun held member => ?_) (plus_moved loadBase ⟨declared⟩ offset)
  rw [declares held member, plus_offsetBy nonzero loaded, offsetBy_unloaded]

/-! Runs. -/

theorem declaredBase_sourceOf? {naming : Naming} {object : ObjectFile} {declaredBase : Option UInt64}
    (declares : object.declaredBase = declaredBase) :
    ∀ held ∈ sourceOf? naming object, held.declaredBase = declaredBase := by
  intro held member
  unfold sourceOf? at member
  split at member
  next =>
    cases member
    exact declares
  next => cases member

theorem flatten_groups (group : Address → List FrameReport) (base : Address) (offsets : List UInt64) :
    (offsets.map base.plus).flatMap group = (offsets.map fun offset => group (base.plus offset)).flatten := by
  rw [List.flatMap_map, List.flatMap_def]

theorem answers_groups (module : String) (loadBase : Address) (source : Option DebugSource) (base : Address)
    (offsets : List UInt64) :
    List.Forall₂ Answers (offsets.map base.plus)
      (offsets.map fun offset => groupOf module loadBase source (base.plus offset)) := by
  rw [List.forall₂_map_left_iff, List.forall₂_map_right_iff, List.forall₂_same]
  exact fun offset _ => answers_groupOf module loadBase source (base.plus offset)

theorem flatten_moved_content (distance : UInt64) (groups : List (List FrameReport)) :
    (groups.map (moved distance)).flatten.map FrameReport.content =
      groups.flatten.map FrameReport.content := by
  induction groups with
  | nil => rfl
  | cons group rest ih =>
    rw [List.map_cons, List.flatten_cons, List.flatten_cons, List.map_append, List.map_append, ih,
      moved_content]

/-- Runs over the same offsets from two load bases, and from the declared base without a load base, say
the same in the same places. The first report of each address carries that address, as the caller gave
it, and so is off by the distance of the bases from what it is in another run. -/
theorem resolveObject_relocated (demanglers : Mangling.Demanglers) (options : Options)
    {object : ObjectFile} {declared : UInt64} (declares : object.declaredBase = some declared)
    (nonzero : declared ≠ 0) (name : String) {first second : Address}
    (first_loaded : first ≠ Address.zero) (second_loaded : second ≠ Address.zero)
    (offsets : List UInt64) {sink : Sink σ} (accepting : sink.Accepting) (state : σ) :
    ∃ groups : List (List FrameReport),
      let lead (base : Address) : List FrameReport :=
        if offsets = [] then [] else [⟨base, some name, .baseAddress⟩]
      let before := groups
      let after := groups.map (moved (second.value - first.value))
      let unloaded := groups.map (moved (declared - first.value))
      List.Forall₂ Answers (offsets.map first.plus) before ∧
      List.Forall₂ Answers (offsets.map second.plus) after ∧
      List.Forall₂ Answers (offsets.map (Address.mk declared).plus) unloaded ∧
      resolveObject demanglers options object name first sink state (offsets.map first.plus) =
        ⟨sink.absorb state (lead first ++ before.flatten), offsets.length, .more⟩ ∧
      resolveObject demanglers options object name second sink state (offsets.map second.plus) =
        ⟨sink.absorb state (lead second ++ after.flatten), offsets.length, .more⟩ ∧
      resolveObject demanglers options object name Address.zero sink state
          (offsets.map (Address.mk declared).plus) =
        ⟨sink.absorb state unloaded.flatten, offsets.length, .more⟩ ∧
      (lead second ++ after.flatten).map FrameReport.content =
        (lead first ++ before.flatten).map FrameReport.content ∧
      (lead first ++ before.flatten).map FrameReport.content =
        (lead first).map FrameReport.content ++ unloaded.flatten.map FrameReport.content := by
  let source := sourceOf? (namingOf demanglers options) object
  have based : ∀ held ∈ source, held.declaredBase = some declared := declaredBase_sourceOf? declares
  have here : (offsets.map fun offset => groupOf name second source (second.plus offset)) =
      (offsets.map fun offset => groupOf name first source (first.plus offset)).map
        (moved (second.value - first.value)) := by
    rw [List.map_map]
    exact List.map_congr_left fun offset _ =>
      groupOf_relocated based nonzero name first_loaded second_loaded offset
  have bare : (offsets.map fun offset =>
        groupOf name Address.zero source ((Address.mk declared).plus offset)) =
      (offsets.map fun offset => groupOf name first source (first.plus offset)).map
        (moved (declared - first.value)) := by
    rw [List.map_map]
    exact List.map_congr_left fun offset _ => groupOf_unloaded based nonzero name first_loaded offset
  refine ⟨offsets.map fun offset => groupOf name first source (first.plus offset), ?_⟩
  simp only [← here, ← bare]
  refine ⟨answers_groups name first source first offsets, answers_groups name second source second offsets,
    answers_groups name Address.zero source ⟨declared⟩ offsets, ?_, ?_, ?_, ?_, ?_⟩
  · simp only [resolveObject_of_accepting _ _ _ _ _ accepting, flatten_groups, announced,
      List.map_eq_nil_iff, first_loaded, or_false, List.length_map, source]
  · simp only [resolveObject_of_accepting _ _ _ _ _ accepting, flatten_groups, announced,
      List.map_eq_nil_iff, second_loaded, or_false, List.length_map, source]
  · simp only [resolveObject_of_accepting _ _ _ _ _ accepting, flatten_groups, announced, or_true,
      ↓reduceIte, List.nil_append, List.length_map, source]
  · rw [List.map_append, List.map_append, here, flatten_moved_content]
    congr 1
    split <;> rfl
  · rw [List.map_append, bare, flatten_moved_content]

def oneLine : ObjectFile :=
  ObjectFile.ofSections 8 (some 0x1000)
    [(".debug_info", [
        0x18, 0, 0, 0, 4, 0, 0, 0, 0, 0, 8, 1, 0, 0, 0, 0, 0, 0x10, 0, 0, 0, 0, 0, 0, 0, 1, 0, 0]),
      (".debug_abbrev", [1, 0x11, 0, 0x10, 0x17, 0x11, 1, 0x12, 6, 0, 0, 0]),
      (".debug_line", [
        0x33, 0, 0, 0, 4, 0, 0x1b, 0, 0, 0, 1, 1, 1, 0xfb, 0xe, 0xd, 0, 1, 1, 1, 1, 0, 0, 0, 1, 0, 0, 1,
        0, 0x61, 0x2e, 0x63, 0, 0, 0, 0, 0,
        0, 9, 2, 0, 0x10, 0, 0, 0, 0, 0, 0, 1, 2, 0x80, 2, 0, 1, 1])]

/-- A base above the middle of the address space, and one below the declared base. -/
theorem resolveObject_relocated_oneLine :
    oneLine.declaredBase = some 0x1000 ∧ Address.mk 0xfffffffffffff000 ≠ Address.zero ∧
      Address.mk 0x10 ≠ Address.zero ∧ Sink.collector.Accepting ∧
      (resolveObject ⟨fun _ => none, fun _ => none⟩ Options.default oneLine "app" ⟨0xfffffffffffff000⟩
          Sink.collector [] [⟨0xfffffffffffff028⟩]).state =
        [⟨⟨0xfffffffffffff000⟩, some "app", .baseAddress⟩,
          ⟨⟨0xfffffffffffff028⟩, some "app", .resolved ⟨"a.c", 1, 0⟩ none⟩] ∧
      (resolveObject ⟨fun _ => none, fun _ => none⟩ Options.default oneLine "app" ⟨0x10⟩
          Sink.collector [] [⟨0x38⟩]).state =
        [⟨⟨0x10⟩, some "app", .baseAddress⟩, ⟨⟨0x38⟩, some "app", .resolved ⟨"a.c", 1, 0⟩ none⟩] ∧
      (resolveObject ⟨fun _ => none, fun _ => none⟩ Options.default oneLine "app" Address.zero
          Sink.collector [] [⟨0x1028⟩]).state =
        [⟨⟨0x1028⟩, some "app", .resolved ⟨"a.c", 1, 0⟩ none⟩] := by
  have high : (resolveObject ⟨fun _ => none, fun _ => none⟩ Options.default oneLine "app"
      ⟨0xfffffffffffff000⟩ Sink.collector [] [⟨0xfffffffffffff028⟩]).state =
      [⟨⟨0xfffffffffffff000⟩, some "app", .baseAddress⟩,
        ⟨⟨0xfffffffffffff028⟩, some "app", .resolved ⟨"a.c", 1, 0⟩ none⟩] := by cbv
  have base : Address.mk 0xfffffffffffff000 ≠ Address.zero := by decide
  have other : Address.mk 0x10 ≠ Address.zero := by decide
  have declares : oneLine.declaredBase = some 0x1000 := rfl
  obtain ⟨groups, answers, _, _, first, second, unloaded, _⟩ := resolveObject_relocated
    ⟨fun _ => none, fun _ => none⟩ Options.default declares (by decide) "app" base other [0x28]
    Sink.collector_accepting []
  obtain ⟨group, rfl⟩ : ∃ group, groups = [group] := List.length_eq_one_iff.1 answers.length_eq.symm
  have taken : group = [⟨⟨0xfffffffffffff028⟩, some "app", .resolved ⟨"a.c", 1, 0⟩ none⟩] := by
    have whole := (congrArg Progress.state first).symm.trans high
    rw [Sink.absorb_collector] at whole
    simpa using whole
  subst taken
  refine ⟨declares, base, other, Sink.collector_accepting, high, ?_, ?_⟩
  · refine (congrArg Progress.state second).trans ?_
    rw [Sink.absorb_collector]
    rfl
  · refine (congrArg Progress.state unloaded).trans ?_
    rw [Sink.absorb_collector]
    rfl

end Resolve

end Symbolizer
