import Symbolizer.Proofs.LineTable.Scan

/-!
The place of the row that a table answers with. Whatever the order of the rows, that place is one of them and
has another one behind it. Where addresses never fall it is the last place at or below the target, and a search
by halving finds the same row.
-/

namespace Symbolizer.LineTable

/-- The place in front of the first row above a target, if its own row does not end a sequence. -/
structure StopsAt (rows : List LineRow) (target : UInt64) (position : Nat) : Prop where
  passed : ∀ place row, place ≤ position → rows[place]? = some row → row.address ≤ target
  above : ∃ next, rows[position + 1]? = some next ∧ target < next.address
  continues : ∃ row, rows[position]? = some row ∧ row.endSequence = false

/-- The last place with an address at or below a target, if there is a row behind it and its own row does not
end a sequence. -/
structure Governs (rows : List LineRow) (target : UInt64) (position : Nat) : Prop where
  reached : ∃ row, rows[position]? = some row ∧ row.address ≤ target
  last : ∀ place row, rows[place]? = some row → row.address ≤ target → place ≤ position
  followed : position + 1 < rows.length
  continues : ∃ row, rows[position]? = some row ∧ row.endSequence = false

def Rising (rows : List LineRow) : Prop :=
  rows.Pairwise fun a b => a.address ≤ b.address

variable {rows : List LineRow} {target : UInt64} {position : Nat}

/-! The place that is read. -/

theorem split_of_neighbours {α : Type} {elements : List α} {lower upper : α}
    (here : elements[position]? = some lower) (behind : elements[position + 1]? = some upper) :
    elements = elements.take position ++ lower :: upper :: elements.drop (position + 2) := by
  obtain ⟨inside, rfl⟩ := List.getElem?_eq_some_iff.1 here
  obtain ⟨inside', rfl⟩ := List.getElem?_eq_some_iff.1 behind
  rw [List.getElem_cons_drop, List.getElem_cons_drop, List.take_append_drop]

theorem listed_of_getElem? {place : Nat} {row : LineRow} (held : rows[place]? = some row) :
    rows.zipIdx[place]? = some (row, place) := by
  rw [List.getElem?_zipIdx, held, Option.map_some, Nat.zero_add]

theorem place_of_split {rows : List LineRow} {before after : List (LineRow × Nat)} {place : LineRow × Nat}
    (split : rows.zipIdx = before ++ place :: after) :
    place.2 = before.length ∧ rows[before.length]? = some place.1 := by
  have here : rows.zipIdx[before.length]? = some place := by
    rw [split, List.getElem?_append_right (Nat.le_refl _), Nat.sub_self, List.getElem?_cons_zero]
  rw [List.getElem?_zipIdx, Option.map_eq_some_iff] at here
  obtain ⟨row, held, rfl⟩ := here
  exact ⟨Nat.zero_add _, held⟩

theorem stopsAt_of_brackets {lower upper : LineRow × Nat}
    (brackets : Brackets Prod.fst target rows.zipIdx lower upper) : StopsAt rows target lower.2 := by
  obtain ⟨before, after, split, earlier⟩ := brackets.neighbours
  obtain ⟨placed, here⟩ := place_of_split split
  have shifted : rows.zipIdx = (before ++ [lower]) ++ upper :: after := by
    rw [split, List.append_assoc, List.singleton_append]
  obtain ⟨-, behind⟩ := place_of_split shifted
  rw [List.length_append, List.length_singleton] at behind
  rw [placed]
  refine ⟨fun place row within held => ?_, ⟨_, behind, brackets.below⟩, ⟨_, here, brackets.continues⟩⟩
  rcases Nat.lt_or_eq_of_le within with less | rfl
  · have listed := listed_of_getElem? held
    rw [split, List.getElem?_append_left less] at listed
    exact earlier _ (List.mem_of_getElem? listed)
  · rw [here, Option.some.injEq] at held
    exact held ▸ brackets.reached

theorem brackets_of_stopsAt (stops : StopsAt rows target position) :
    ∃ lower upper, Brackets Prod.fst target rows.zipIdx lower upper ∧ lower.2 = position := by
  obtain ⟨row, here, continues⟩ := stops.continues
  obtain ⟨next, behind, below⟩ := stops.above
  have split := split_of_neighbours (listed_of_getElem? here) (listed_of_getElem? behind)
  refine ⟨(row, position), (next, position + 1),
    ⟨⟨_, _, split, fun element member => ?_⟩, stops.passed _ _ (Nat.le_refl _) here, below, continues⟩, rfl⟩
  obtain ⟨place, inside, rfl⟩ := List.mem_take_iff_getElem.1 member
  rw [List.getElem_zipIdx]
  exact stops.passed _ _ (by omega) (List.getElem?_eq_getElem _)

theorem governingIndex?_eq_some_iff {table : LineTable} {index : Int} :
    table.governingIndex? target = some index ↔ ∃ position : Nat, index = position ∧
      StopsAt table.rows target position := by
  rw [governingIndex?_eq, Option.map_eq_some_iff]
  constructor
  · rintro ⟨⟨lower, upper⟩, found, rfl⟩
    exact ⟨lower.2, rfl, stopsAt_of_brackets (bracket?_eq_some_iff.1 found)⟩
  · rintro ⟨position, rfl, stops⟩
    obtain ⟨lower, upper, brackets, rfl⟩ := brackets_of_stopsAt stops
    exact ⟨(lower, upper), bracket?_eq_some_iff.2 brackets, rfl⟩

/-! Rows in order. -/

theorem Rising.address_le (rising : Rising rows) {place later : Nat} (order : place ≤ later)
    {row held : LineRow} (here : rows[place]? = some row) (there : rows[later]? = some held) :
    row.address ≤ held.address := by
  rcases Nat.lt_or_eq_of_le order with less | rfl
  · obtain ⟨inside, rfl⟩ := List.getElem?_eq_some_iff.1 here
    obtain ⟨inside', rfl⟩ := List.getElem?_eq_some_iff.1 there
    exact List.pairwise_iff_getElem.1 rising _ _ inside inside' less
  · rw [here, Option.some.injEq] at there
    exact there ▸ UInt64.le_refl _

theorem stopsAt_iff_governs (rising : Rising rows) :
    StopsAt rows target position ↔ Governs rows target position := by
  constructor
  · intro stops
    obtain ⟨row, here, continues⟩ := stops.continues
    obtain ⟨next, behind, below⟩ := stops.above
    refine ⟨⟨row, here, stops.passed _ _ (Nat.le_refl _) here⟩, fun place held there reached => ?_,
      (List.getElem?_eq_some_iff.1 behind).1, row, here, continues⟩
    by_contra beyond
    have higher := rising.address_le (by omega) behind there
    exact UInt64.not_lt.2 (UInt64.le_trans higher reached) below
  · intro governs
    obtain ⟨row, here, reached⟩ := governs.reached
    refine ⟨fun place held within there => ?_, ⟨_, List.getElem?_eq_getElem governs.followed, ?_⟩,
      governs.continues⟩
    · exact UInt64.le_trans (rising.address_le within there here) reached
    · rw [← UInt64.not_le]
      intro wrong
      have within := governs.last _ _ (List.getElem?_eq_getElem governs.followed) wrong
      omega

/-! A search by halving. -/

/-- The places from `low` on and below `high` are halved until none is left. -/
def partitionPoint (rows : List LineRow) (target : UInt64) (low high : Nat) : Nat :=
  if low < high then
    let middle := (low + high) / 2
    if (rows[middle]?).any (·.address ≤ target) then partitionPoint rows target (middle + 1) high
    else partitionPoint rows target low middle
  else low
termination_by high - low

def findByHalving (table : LineTable) (target : UInt64) : Option LineRow :=
  match partitionPoint table.rows target 0 table.rows.length with
  | 0 => none
  | position + 1 =>
    if position + 1 < table.rows.length then (table.rows[position]?).filter (!·.endSequence) else none

structure PartsAt (rows : List LineRow) (target : UInt64) (point : Nat) : Prop where
  inside : point ≤ rows.length
  reached_iff : ∀ place row, rows[place]? = some row → (row.address ≤ target ↔ place < point)

theorem partitionPoint_parts (rising : Rising rows) {low high : Nat} (order : low ≤ high)
    (inside : high ≤ rows.length)
    (below : ∀ place row, place < low → rows[place]? = some row → row.address ≤ target)
    (above : ∀ place row, high ≤ place → rows[place]? = some row → ¬row.address ≤ target) :
    PartsAt rows target (partitionPoint rows target low high) := by
  fun_induction partitionPoint rows target low high with
  | case1 low high less middle reached ih =>
    have within : middle < rows.length := by omega
    have here : rows[middle]? = some rows[middle] := List.getElem?_eq_getElem within
    rw [here, Option.any_some, decide_eq_true_eq] at reached
    refine ih (by omega) inside (fun place row front held => ?_) above
    exact UInt64.le_trans (rising.address_le (by omega) held here) reached
  | case2 low high less middle missed ih =>
    have within : middle < rows.length := by omega
    have here : rows[middle]? = some rows[middle] := List.getElem?_eq_getElem within
    rw [here, Option.any_some, decide_eq_true_eq] at missed
    refine ih (by omega) (by omega) below (fun place row behind held reached => missed ?_)
    exact UInt64.le_trans (rising.address_le behind here held) reached
  | case3 low high done =>
    obtain rfl : low = high := by omega
    refine ⟨inside, fun place row here => ⟨fun reached => ?_, fun less => below _ _ less here⟩⟩
    by_contra beyond
    exact above _ _ (by omega) here reached

theorem governs_iff_of_parts {point : Nat} (parts : PartsAt rows target point) :
    Governs rows target position ↔ position + 1 = point ∧ point < rows.length ∧
      ∃ row, rows[position]? = some row ∧ row.endSequence = false := by
  constructor
  · intro governs
    obtain ⟨row, here, reached⟩ := governs.reached
    have front : position < point := (parts.reached_iff _ _ here).1 reached
    have behind : ¬position + 1 < point := by
      intro less
      have held := List.getElem?_eq_getElem governs.followed
      have within := governs.last _ _ held ((parts.reached_iff _ _ held).2 less)
      omega
    have followed := governs.followed
    exact ⟨by omega, by omega, governs.continues⟩
  · rintro ⟨rfl, followed, row, here, continues⟩
    refine ⟨⟨row, here, (parts.reached_iff _ _ here).2 (Nat.lt_succ_self _)⟩,
      fun place held there reached => ?_, followed, row, here, continues⟩
    exact Nat.le_of_lt_succ ((parts.reached_iff _ _ there).1 reached)

theorem findByHalving_eq_some_iff {table : LineTable} (rising : Rising table.rows) {row : LineRow} :
    table.findByHalving target = some row ↔
      ∃ position, Governs table.rows target position ∧ table.rows[position]? = some row := by
  have parts : PartsAt table.rows target (partitionPoint table.rows target 0 table.rows.length) :=
    partitionPoint_parts rising (Nat.zero_le _) (Nat.le_refl _) (fun _ _ less => absurd less (Nat.not_lt_zero _))
      (fun place held beyond there => by
        rw [List.getElem?_eq_none beyond] at there
        cases there)
  simp only [governs_iff_of_parts parts, findByHalving]
  split
  next front => simp [front]
  next place point =>
    rw [point]
    constructor
    · intro found
      rw [Option.ite_none_right_eq_some, Option.filter_eq_some_iff, Bool.not_eq_true'] at found
      obtain ⟨followed, here, continues⟩ := found
      exact ⟨place, ⟨rfl, followed, row, here, continues⟩, here⟩
    · rintro ⟨position, ⟨same, followed, held, there, continues⟩, here⟩
      obtain rfl := Nat.succ.inj same
      rw [here, Option.some.injEq] at there
      rw [if_pos followed, here, Option.filter_some, there, continues]
      rfl

/-! The row that is found. -/

theorem rowAt?_natCast (table : LineTable) (position : Nat) : table.rowAt? position = table.rows[position]? := by
  rw [rowAt?, if_neg (Int.not_lt.2 (Int.natCast_nonneg position)), Int.toNat_natCast]

theorem findRow_eq_some_iff {table : LineTable} {row : LineRow} :
    table.findRow target = some row ↔
      ∃ position, StopsAt table.rows target position ∧ table.rows[position]? = some row := by
  simp only [findRow, Option.bind_eq_some_iff, governingIndex?_eq_some_iff]
  constructor
  · rintro ⟨_, ⟨position, rfl, stops⟩, here⟩
    exact ⟨position, stops, rowAt?_natCast table position ▸ here⟩
  · rintro ⟨position, stops, here⟩
    exact ⟨position, ⟨position, rfl, stops⟩, (rowAt?_natCast table position).trans here⟩

theorem findRow_of_governingIndex? {table : LineTable} {index : Int}
    (found : table.governingIndex? target = some index) :
    0 ≤ index ∧ index + 1 < table.rows.length ∧ table.findRow target = table.rows[index.toNat]? := by
  obtain ⟨position, rfl, stops⟩ := governingIndex?_eq_some_iff.1 found
  obtain ⟨next, behind, -⟩ := stops.above
  obtain ⟨inside, -⟩ := List.getElem?_eq_some_iff.1 behind
  refine ⟨Int.natCast_nonneg position, by omega, ?_⟩
  rw [findRow, found, Option.bind_some, rowAt?_natCast, Int.toNat_natCast]

/-- Whatever the order of the rows, a table never reads in front of the first one, and what it reads has a row
behind it. Where addresses never fall, it reads at the last place at or below the target exactly when there is a
row behind that place and its own row does not end a sequence, answers nothing for any other target, and agrees
with the search by halving. -/
theorem findRow_placed (table : LineTable) (target : UInt64) :
    (∀ index, table.governingIndex? target = some index →
      0 ≤ index ∧ index + 1 < table.rows.length ∧ table.findRow target = table.rows[index.toNat]?) ∧
    (Rising table.rows →
      (∀ position : Nat,
        table.governingIndex? target = some ↑position ↔ Governs table.rows target position) ∧
      (∀ position, Governs table.rows target position → table.findRow target = table.rows[position]?) ∧
      (table.findRow target = none ↔ ∀ position, ¬Governs table.rows target position) ∧
      table.findRow target = table.findByHalving target) := by
  refine ⟨fun index found => findRow_of_governingIndex? found, fun rising => ?_⟩
  have read (position : Nat) :
      table.governingIndex? target = some ↑position ↔ Governs table.rows target position := by
    rw [governingIndex?_eq_some_iff, ← stopsAt_iff_governs rising]
    constructor
    · rintro ⟨_, same, stops⟩
      exact Int.ofNat.inj same ▸ stops
    · exact fun stops => ⟨position, rfl, stops⟩
  have found (row : LineRow) : table.findRow target = some row ↔
      ∃ position, Governs table.rows target position ∧ table.rows[position]? = some row := by
    simp only [findRow_eq_some_iff, stopsAt_iff_governs rising]
  refine ⟨read, fun position governs => ?_, ?_, ?_⟩
  · exact (findRow_of_governingIndex? ((read position).2 governs)).2.2
  · rw [Option.eq_none_iff_forall_ne_some]
    constructor
    · intro nothing position governs
      obtain ⟨row, here, -⟩ := governs.reached
      exact nothing row ((found row).2 ⟨position, governs, here⟩)
    · intro nowhere row answered
      obtain ⟨position, governs, -⟩ := (found row).1 answered
      exact nowhere position governs
  · apply Option.ext
    intro row
    rw [found, findByHalving_eq_some_iff rising]

def sharedAddress : LineTable where
  rows := [⟨0x10, 1, 7, 0, false⟩, ⟨0x20, 1, 8, 0, false⟩, ⟨0x20, 1, 8, 0, true⟩, ⟨0x20, 1, 1, 0, false⟩,
    ⟨0x30, 1, 1, 0, true⟩]
  files := ["a.c"]
  firstFile := 1

theorem findRow_placed_sharedAddress :
    Rising sharedAddress.rows ∧ Governs sharedAddress.rows 0x20 3 ∧
      sharedAddress.findRow 0x20 = some ⟨0x20, 1, 1, 0, false⟩ ∧
      sharedAddress.findByHalving 0x20 = some ⟨0x20, 1, 1, 0, false⟩ ∧
      (∀ position, ¬Governs sharedAddress.rows 0x30 position) := by
  have rising : Rising sharedAddress.rows := by
    unfold Rising
    decide
  obtain ⟨read, answered, -, halved⟩ := (findRow_placed sharedAddress 0x20).2 rising
  have governs := (read 3).1 (by decide)
  refine ⟨rising, governs, answered 3 governs, halved ▸ answered 3 governs, ?_⟩
  exact ((findRow_placed sharedAddress 0x30).2 rising).2.2.1.1 (by decide)

end Symbolizer.LineTable
