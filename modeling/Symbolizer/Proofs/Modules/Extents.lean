import Mathlib
import Symbolizer.Modules

/-!
The modules of a memory map. Mappings are summed up file by file while the extents stay in the order of
their paths; what comes out are the modules of exactly those files that have an executable mapping, each
from the lowest mapping of its file to the highest, in the order of their bases.
-/

namespace Symbolizer

/-- The module of a file with an executable mapping, from the lowest of all its mappings to the highest. -/
structure Module.SpansFile (mappings : List Mapping) (module : Module) : Prop where
  executable : ∃ mapping ∈ mappings, mapping.pathname = some module.path ∧ mapping.isExecutable = true
  starts : ∃ mapping ∈ mappings, mapping.pathname = some module.path ∧ mapping.low = module.base.value
  lowest : ∀ mapping ∈ mappings, mapping.pathname = some module.path → module.base.value ≤ mapping.low
  ends : ∃ mapping ∈ mappings, mapping.pathname = some module.path ∧ mapping.high = module.limit.value
  highest : ∀ mapping ∈ mappings, mapping.pathname = some module.path → mapping.high ≤ module.limit.value

def Module.InFront (one other : Module) : Prop :=
  one.base.value < other.base.value ∨ one.base = other.base ∧ one.path < other.path

namespace Extent

structure Covers (mappings : List Mapping) (extent : Extent) : Prop where
  starts : ∃ mapping ∈ mappings, mapping.pathname = some extent.path ∧ mapping.low = extent.low
  lowest : ∀ mapping ∈ mappings, mapping.pathname = some extent.path → extent.low ≤ mapping.low
  ends : ∃ mapping ∈ mappings, mapping.pathname = some extent.path ∧ mapping.high = extent.high
  highest : ∀ mapping ∈ mappings, mapping.pathname = some extent.path → mapping.high ≤ extent.high
  executable : extent.executable = true ↔
    ∃ mapping ∈ mappings, mapping.pathname = some extent.path ∧ mapping.isExecutable = true

variable {mappings : List Mapping} {mapping : Mapping} {path : String} {extent old : Extent}
  {extents : List Extent}

def alone (mapping : Mapping) (path : String) : Extent :=
  ⟨path, mapping.low, mapping.high, mapping.isExecutable⟩

def Sorted (extents : List Extent) : Prop :=
  extents.Pairwise fun one other => one.path < other.path

theorem insert_cons (mapping : Mapping) (path : String) (extent : Extent) (rest : List Extent) :
    insert mapping path (extent :: rest) =
      if path = extent.path then extent.widen mapping :: rest
      else if path < extent.path then alone mapping path :: extent :: rest
      else extent :: insert mapping path rest := rfl

/-- Inserting a mapping leaves other files alone, and makes an extent for a new one. -/
theorem mem_insert (sorted : Sorted extents) :
    extent ∈ insert mapping path extents ↔
      (extent ∈ extents ∧ extent.path ≠ path) ∨
        (∃ old ∈ extents, old.path = path ∧ extent = old.widen mapping) ∨
        ((∀ old ∈ extents, old.path ≠ path) ∧ extent = alone mapping path) := by
  induction extents with
  | nil => simp [insert, alone]
  | cons first rest ih =>
    obtain ⟨behind, sorted_rest⟩ := List.pairwise_cons.1 sorted
    rw [insert_cons]
    split
    next here =>
      have others : ∀ old ∈ rest, old.path ≠ path :=
        fun old member => here ▸ (behind old member).ne'
      constructor
      · intro member
        rcases List.mem_cons.1 member with rfl | inside
        · exact .inr (.inl ⟨first, List.mem_cons_self, here.symm, rfl⟩)
        · exact .inl ⟨List.mem_cons_of_mem _ inside, others extent inside⟩
      · rintro (⟨member, apart⟩ | ⟨old, member, same, rfl⟩ | ⟨none, _⟩)
        · rcases List.mem_cons.1 member with rfl | inside
          · exact absurd here.symm apart
          · exact List.mem_cons_of_mem _ inside
        · rcases List.mem_cons.1 member with rfl | inside
          · exact List.mem_cons_self
          · exact absurd same (others old inside)
        · exact absurd here.symm (none first List.mem_cons_self)
    next apart =>
      split
      next lower =>
        -- All that stands here comes behind the new path, so the file is new.
        have others : ∀ old ∈ first :: rest, old.path ≠ path := by
          intro old member
          rcases List.mem_cons.1 member with rfl | inside
          · exact lower.ne'
          · exact (lower.trans (behind old inside)).ne'
        constructor
        · intro member
          rcases List.mem_cons.1 member with rfl | inside
          · exact .inr (.inr ⟨others, rfl⟩)
          · exact .inl ⟨inside, others extent inside⟩
        · rintro (⟨member, _⟩ | ⟨old, member, same, _⟩ | ⟨_, rfl⟩)
          · exact List.mem_cons_of_mem _ member
          · exact absurd same (others old member)
          · exact List.mem_cons_self
      next =>
        have other : first.path ≠ path := fun same => apart same.symm
        rw [List.mem_cons, ih sorted_rest, List.mem_cons, List.exists_mem_cons_iff, List.forall_mem_cons]
        constructor
        · rintro (rfl | ⟨inside, apart⟩ | changed | ⟨none, new⟩)
          · exact .inl ⟨.inl rfl, other⟩
          · exact .inl ⟨.inr inside, apart⟩
          · exact .inr (.inl (.inr changed))
          · exact .inr (.inr ⟨⟨other, none⟩, new⟩)
        · rintro (⟨rfl | inside, apart⟩ | (⟨same, _⟩ | changed) | ⟨⟨_, none⟩, new⟩)
          · exact .inl rfl
          · exact .inr (.inl ⟨inside, apart⟩)
          · exact absurd same other
          · exact .inr (.inr (.inl changed))
          · exact .inr (.inr (.inr ⟨none, new⟩))

theorem path_of_mem_insert (sorted : Sorted extents) (member : extent ∈ insert mapping path extents) :
    extent.path = path ∨ extent ∈ extents := by
  rcases (mem_insert sorted).1 member with ⟨inside, _⟩ | ⟨old, _, same, rfl⟩ | ⟨_, rfl⟩
  · exact .inr inside
  · exact .inl same
  · exact .inl rfl

theorem sorted_insert (sorted : Sorted extents) : Sorted (insert mapping path extents) := by
  induction extents with
  | nil => exact List.pairwise_singleton _ _
  | cons first rest ih =>
    obtain ⟨behind, sorted_rest⟩ := List.pairwise_cons.1 sorted
    rw [insert_cons]
    split
    next => exact List.pairwise_cons.2 ⟨behind, sorted_rest⟩
    next apart =>
      split
      next lower =>
        refine List.pairwise_cons.2 ⟨fun old member => ?_, sorted⟩
        rcases List.mem_cons.1 member with rfl | inside
        · exact lower
        · exact lower.trans (behind old inside)
      next higher =>
        refine List.pairwise_cons.2 ⟨fun old member => ?_, ih sorted_rest⟩
        rcases path_of_mem_insert sorted_rest member with same | inside
        · rw [same]
          exact lt_of_le_of_ne (not_lt.1 higher) fun here => apart here.symm
        · exact behind old inside

/-! One mapping more. -/

theorem Covers.append_other (covers : Covers mappings extent) (other : mapping.pathname ≠ some extent.path) :
    Covers (mappings ++ [mapping]) extent := by
  have same {P : Mapping → Prop} :
      (∃ held ∈ mappings ++ [mapping], held.pathname = some extent.path ∧ P held) ↔
      ∃ held ∈ mappings, held.pathname = some extent.path ∧ P held := by
    simp [or_and_right, exists_or, other]
  have all {P : Mapping → Prop} :
      (∀ held ∈ mappings ++ [mapping], held.pathname = some extent.path → P held) ↔
        ∀ held ∈ mappings, held.pathname = some extent.path → P held := by
    simp [or_imp, forall_and, other]
  exact ⟨same.2 covers.starts, all.2 covers.lowest, same.2 covers.ends, all.2 covers.highest,
    covers.executable.trans same.symm⟩

theorem covers_alone (fresh : ∀ held ∈ mappings, held.pathname ≠ some path)
    (own : mapping.pathname = some path) : Covers (mappings ++ [mapping]) (alone mapping path) := by
  have only {P : Mapping → Prop} :
      (∃ held ∈ mappings ++ [mapping], held.pathname = some path ∧ P held) ↔ P mapping := by
    constructor
    · rintro ⟨held, member, same, holds⟩
      rcases List.mem_append.1 member with inside | last
      · exact absurd same (fresh held inside)
      · exact List.mem_singleton.1 last ▸ holds
    · exact fun holds => ⟨mapping, List.mem_append_right _ (List.mem_singleton_self _), own, holds⟩
  have all {P : Mapping → Prop} (holds : P mapping) :
      ∀ held ∈ mappings ++ [mapping], held.pathname = some path → P held := by
    intro held member same
    rcases List.mem_append.1 member with inside | last
    · exact absurd same (fresh held inside)
    · exact List.mem_singleton.1 last ▸ holds
  exact ⟨only.2 rfl, all (UInt64.le_refl _), only.2 rfl, all (UInt64.le_refl _), Iff.symm only⟩

theorem widen_low (old : Extent) (mapping : Mapping) :
    ((old.widen mapping).low = old.low ∨ (old.widen mapping).low = mapping.low) ∧
      (old.widen mapping).low ≤ old.low ∧ (old.widen mapping).low ≤ mapping.low := by
  by_cases lower : mapping.low < old.low
  · have taken : (old.widen mapping).low = mapping.low := if_pos lower
    rw [taken]
    exact ⟨.inr rfl, UInt64.le_of_lt lower, UInt64.le_refl _⟩
  · have kept : (old.widen mapping).low = old.low := if_neg lower
    rw [kept]
    exact ⟨.inl rfl, UInt64.le_refl _, UInt64.not_lt.1 lower⟩

theorem widen_high (old : Extent) (mapping : Mapping) :
    ((old.widen mapping).high = old.high ∨ (old.widen mapping).high = mapping.high) ∧
      old.high ≤ (old.widen mapping).high ∧ mapping.high ≤ (old.widen mapping).high := by
  by_cases higher : old.high < mapping.high
  · have taken : (old.widen mapping).high = mapping.high := if_pos higher
    rw [taken]
    exact ⟨.inr rfl, UInt64.le_of_lt higher, UInt64.le_refl _⟩
  · have kept : (old.widen mapping).high = old.high := if_neg higher
    rw [kept]
    exact ⟨.inl rfl, UInt64.le_refl _, UInt64.not_lt.1 higher⟩

theorem Covers.append_own (covers : Covers mappings old) (own : mapping.pathname = some old.path) :
    Covers (mappings ++ [mapping]) (old.widen mapping) := by
  have last : mapping ∈ mappings ++ [mapping] := List.mem_append_right _ (List.mem_singleton_self _)
  obtain ⟨low, low_old, low_new⟩ := widen_low old mapping
  obtain ⟨high, high_old, high_new⟩ := widen_high old mapping
  obtain ⟨first, member, same, starts⟩ := covers.starts
  obtain ⟨final, member_too, same_too, ends⟩ := covers.ends
  refine ⟨?_, ?_, ?_, ?_, ?_⟩
  · rcases low with kept | taken
    · exact ⟨first, List.mem_append_left _ member, same, starts.trans kept.symm⟩
    · exact ⟨mapping, last, own, taken.symm⟩
  · intro held inside own_too
    rcases List.mem_append.1 inside with before | here
    · exact UInt64.le_trans low_old (covers.lowest held before own_too)
    · rw [List.mem_singleton.1 here]
      exact low_new
  · rcases high with kept | taken
    · exact ⟨final, List.mem_append_left _ member_too, same_too, ends.trans kept.symm⟩
    · exact ⟨mapping, last, own, taken.symm⟩
  · intro held inside own_too
    rcases List.mem_append.1 inside with before | here
    · exact UInt64.le_trans (covers.highest held before own_too) high_old
    · rw [List.mem_singleton.1 here]
      exact high_new
  · have path : (old.widen mapping).path = old.path := rfl
    have either : (old.widen mapping).executable = (old.executable || mapping.isExecutable) := rfl
    rw [path, either, Bool.or_eq_true, covers.executable]
    simp [or_and_right, exists_or, own]

end Extent

/-! All mappings. -/

namespace Modules

variable {mappings : List Mapping} {mapping : Mapping} {extent : Extent}

structure SumUp (mappings : List Mapping) (extents : List Extent) : Prop where
  sorted : Extent.Sorted extents
  covers : ∀ extent ∈ extents, extent.Covers mappings
  known : ∀ mapping ∈ mappings, ∀ path ∈ mapping.pathname, ∃ extent ∈ extents, extent.path = path

theorem extents_append (mappings : List Mapping) (mapping : Mapping) :
    extents (mappings ++ [mapping]) =
      match mapping.pathname with
      | some path => Extent.insert mapping path (extents mappings)
      | none => extents mappings := by
  rw [extents, List.foldl_append]
  rfl

theorem sumUp_insert {extents : List Extent} {path : String} (sums : SumUp mappings extents)
    (own : mapping.pathname = some path) :
    SumUp (mappings ++ [mapping]) (Extent.insert mapping path extents) := by
  refine ⟨Extent.sorted_insert sums.sorted, fun extent member => ?_, fun held member other named => ?_⟩
  · rcases (Extent.mem_insert sums.sorted).1 member with
      ⟨inside, apart⟩ | ⟨old, inside, rfl, rfl⟩ | ⟨fresh, rfl⟩
    · refine (sums.covers extent inside).append_other fun same => apart ?_
      exact Option.some.inj (same.symm.trans own)
    · exact (sums.covers old inside).append_own own
    · refine Extent.covers_alone (fun held inside same => ?_) own
      obtain ⟨extent, known, here⟩ := sums.known held inside path same
      exact fresh extent known here
  · by_cases here : other = path
    · subst here
      by_cases old : ∃ old ∈ extents, old.path = other
      · obtain ⟨old, inside, same⟩ := old
        have kept : old.widen mapping ∈ Extent.insert mapping other extents :=
          (Extent.mem_insert sums.sorted).2 (.inr (.inl ⟨old, inside, same, rfl⟩))
        exact ⟨old.widen mapping, kept, same⟩
      · have fresh : ∀ extent ∈ extents, extent.path ≠ other :=
          fun extent inside same => old ⟨extent, inside, same⟩
        exact ⟨Extent.alone mapping other, (Extent.mem_insert sums.sorted).2 (.inr (.inr ⟨fresh, rfl⟩)), rfl⟩
    · rcases List.mem_append.1 member with before | last
      · obtain ⟨extent, known, same⟩ := sums.known held before other named
        have apart : extent.path ≠ path := same ▸ here
        exact ⟨extent, (Extent.mem_insert sums.sorted).2 (.inl ⟨known, apart⟩), same⟩
      · rw [List.mem_singleton.1 last, own] at named
        exact absurd (Option.some.inj named).symm here

theorem sumUp_extents (mappings : List Mapping) : SumUp mappings (extents mappings) := by
  induction mappings using List.reverseRecOn with
  | nil => exact ⟨List.Pairwise.nil, nofun, nofun⟩
  | append_singleton mappings mapping ih =>
    rw [extents_append]
    cases own : mapping.pathname with
    | some path => exact sumUp_insert ih own
    | none =>
      refine ⟨ih.sorted, fun extent member => ?_, fun held member path named => ?_⟩
      · exact (ih.covers extent member).append_other (by simp [own])
      · rcases List.mem_append.1 member with before | last
        · exact ih.known held before path named
        · rw [List.mem_singleton.1 last, own] at named
          cases named

theorem spansFile_iff (sums : extent.Covers mappings) :
    (extent.toModule).SpansFile mappings ↔ extent.executable = true :=
  ⟨fun spans => sums.executable.2 spans.executable,
    fun runs => ⟨sums.executable.1 runs, sums.starts, sums.lowest, sums.ends, sums.highest⟩⟩

theorem eq_of_spansFile {one other : Module} (spans : one.SpansFile mappings)
    (spans_too : other.SpansFile mappings) (same : one.path = other.path) : one = other := by
  obtain ⟨_, ⟨first, member, here, starts⟩, lowest, ⟨final, member_too, here_too, ends⟩, highest⟩ := spans
  obtain ⟨_, ⟨first', member', here', starts'⟩, lowest', ⟨final', member_too', here_too', ends'⟩, highest'⟩ :=
    spans_too
  have base : one.base.value = other.base.value := by
    apply UInt64.le_antisymm
    · exact starts' ▸ lowest first' member' (same ▸ here')
    · exact starts ▸ lowest' first member (same ▸ here)
  have limit : one.limit.value = other.limit.value := by
    apply UInt64.le_antisymm
    · exact ends ▸ highest' final member_too (same ▸ here_too)
    · exact ends' ▸ highest final' member_too' (same ▸ here_too')
  obtain ⟨path, ⟨_⟩, ⟨_⟩⟩ := one
  obtain ⟨_, ⟨_⟩, ⟨_⟩⟩ := other
  cases same
  cases base
  cases limit
  rfl

/-- The modules of a memory map are those of its files with an executable mapping. -/
theorem mem_ofMappings {module : Module} : module ∈ ofMappings mappings ↔ module.SpansFile mappings := by
  have sums := sumUp_extents mappings
  unfold ofMappings
  rw [List.mem_mergeSort, List.mem_map]
  constructor
  · rintro ⟨extent, member, rfl⟩
    obtain ⟨inside, runs⟩ := List.mem_filter.1 member
    exact (spansFile_iff (sums.covers extent inside)).2 runs
  · intro spans
    obtain ⟨mapping, member, named, _⟩ := spans.executable
    obtain ⟨extent, inside, same⟩ := sums.known mapping member module.path named
    have covers := sums.covers extent inside
    have runs : extent.executable = true := by
      apply covers.executable.2
      rw [same]
      exact spans.executable
    have spans_too := (spansFile_iff covers).2 runs
    exact ⟨extent, List.mem_filter.2 ⟨inside, runs⟩, eq_of_spansFile spans_too spans same⟩

theorem ofMappings_pairwise (mappings : List Mapping) :
    (ofMappings mappings).Pairwise Module.InFront := by
  let unsorted := ((extents mappings).filter Extent.executable).map Extent.toModule
  let le : Module → Module → Bool := fun one other => one.base.value ≤ other.base.value
  have trans (one two three : Module) (first : le one two = true) (second : le two three = true) :
      le one three = true := by
    simp only [le, decide_eq_true_eq] at *
    exact UInt64.le_trans first second
  have total (one other : Module) : (le one other || le other one) = true := by
    simp only [le, Bool.or_eq_true, decide_eq_true_eq]
    exact UInt64.le_total _ _
  have by_path : unsorted.Pairwise fun one other => one.path < other.path := by
    rw [List.pairwise_map]
    exact (sumUp_extents mappings).sorted.filter _
  have by_base : (ofMappings mappings).Pairwise fun one other => le one other = true :=
    List.pairwise_mergeSort trans total _
  -- Sorting by bases does not move the modules of one base against each other.
  have kept (base : Address) :
      (ofMappings mappings).filter (·.base = base) = unsorted.filter (·.base = base) := by
    have equal : (unsorted.filter (·.base = base)).Pairwise fun one other => le one other = true := by
      apply List.pairwise_of_forall_mem_list
      intro one member other member_too
      have here : one.base = base := by simpa using (List.mem_filter.1 member).2
      have there : other.base = base := by simpa using (List.mem_filter.1 member_too).2
      simp [le, here, there]
    have inside : (unsorted.filter (·.base = base)).Sublist (ofMappings mappings) :=
      List.sublist_mergeSort trans total equal List.filter_sublist
    have filtered := inside.filter (·.base = base)
    simp only [List.filter_filter, Bool.and_self] at filtered
    apply Eq.symm
    apply filtered.eq_of_length
    exact (((List.mergeSort_perm unsorted le).filter _).length_eq).symm
  rw [List.pairwise_iff_forall_sublist] at by_base by_path ⊢
  intro one other within
  by_cases same : one.base = other.base
  · right
    refine ⟨same, by_path ?_⟩
    have both := within.filter (·.base = other.base)
    rw [kept] at both
    simp only [List.filter_cons, same, decide_true, ↓reduceIte, List.filter_nil] at both
    exact both.trans List.filter_sublist
  · left
    have below : one.base.value ≤ other.base.value := by simpa [le] using by_base within
    apply UInt64.lt_of_le_of_ne below
    exact fun equal => same (congrArg Address.mk equal)

end Modules

end Symbolizer
