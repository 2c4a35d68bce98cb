import Mathlib
import Symbolizer.LineTable

/-!
The search for a governing row as a search for two neighbours. Rows may carry more than the table
keeps of them: `row` tells the row of an element, and the search finds an element with the one
behind it. It finds the first neighbours with the target between them, unless the row of the lower
one ends a sequence. A scan that keeps only a flag and a number reads at the place of the lower one.
-/

namespace Symbolizer.LineTable

variable {α : Type} (row : α → LineRow)

/-- `governing` is the element in front of the rest, unless its row ends a sequence. -/
def bracketFrom (target : UInt64) : Option α → List α → Option (α × α)
  | _, [] => none
  | governing, next :: rest =>
    if (row next).address ≤ target then
      bracketFrom target (if (row next).endSequence then none else some next) rest
    else governing.map (·, next)

def bracket? (target : UInt64) (elements : List α) : Option (α × α) :=
  bracketFrom row target none elements

/-- Two neighbours with a target between them, the first such pair from the front. -/
structure Brackets (target : UInt64) (elements : List α) (lower upper : α) : Prop where
  neighbours : ∃ before after, elements = before ++ lower :: upper :: after ∧
    ∀ element ∈ before, (row element).address ≤ target
  reached : (row lower).address ≤ target
  below : target < (row upper).address
  continues : (row lower).endSequence = false

/-- A search in more detail finds what one in less detail finds. -/
theorem bracketFrom_map {β : Type} (detail : β → α) (target : UInt64) (governing : Option β)
    (elements : List β) :
    bracketFrom row target (governing.map detail) (elements.map detail) =
      (bracketFrom (row ∘ detail) target governing elements).map (Prod.map detail detail) := by
  induction elements generalizing governing with
  | nil => rfl
  | cons next rest ih =>
    simp only [List.map_cons, bracketFrom, Function.comp_apply]
    split
    · rw [← ih]
      split <;> rfl
    · cases governing <;> rfl

/-- The scan reads at the place of the lower neighbour: the number of rows that were passed is one more. -/
theorem scanFrom_eq (target : UInt64) {pastEnd : Bool} {position : Nat} {governing : Option (LineRow × Nat)}
    (held : governing.map (fun place => (place.2 : Int)) =
      if pastEnd then none else some ((position : Int) - 1)) (rows : List LineRow) :
    scanFrom target pastEnd position rows =
      (bracketFrom Prod.fst target governing (rows.zipIdx position)).map fun pair => (pair.1.2 : Int) := by
  induction rows generalizing pastEnd position governing with
  | nil => rfl
  | cons next rest ih =>
    rw [List.zipIdx_cons, scanFrom, bracketFrom]
    split
    · refine ih ?_
      cases next.endSequence with
      | true => rfl
      | false => simp
    · rw [← held]
      cases governing <;> rfl

theorem governingIndex?_eq (table : LineTable) (target : UInt64) :
    table.governingIndex? target =
      (bracket? Prod.fst target table.rows.zipIdx).map fun pair => (pair.1.2 : Int) :=
  scanFrom_eq target rfl table.rows

variable {row} {target : UInt64} {elements : List α} {lower upper : α}

theorem Brackets.cons {next : α} (passed : (row next).address ≤ target)
    (brackets : Brackets row target elements lower upper) :
    Brackets row target (next :: elements) lower upper := by
  obtain ⟨before, after, split, earlier⟩ := brackets.neighbours
  refine ⟨⟨next :: before, after, by rw [split, List.cons_append], ?_⟩, brackets.reached,
    brackets.below, brackets.continues⟩
  intro element member
  rcases List.mem_cons.1 member with same | later
  · exact same ▸ passed
  · exact earlier element later

/-- What is found is either the governing element from outside with the first one right above the
target, or a pair of neighbours further on. -/
theorem brackets_of_bracketFrom {governing : Option α}
    (found : bracketFrom row target governing elements = some (lower, upper)) :
    (governing = some lower ∧ elements.head? = some upper ∧ target < (row upper).address) ∨
      Brackets row target elements lower upper := by
  induction elements generalizing governing with
  | nil => cases found
  | cons next rest ih =>
    rw [bracketFrom] at found
    split at found
    next passed =>
      right
      rcases ih found with ⟨governs, first, below⟩ | further
      · by_cases ends : (row next).endSequence = true
        · simp [ends] at governs
        · simp only [ends, Bool.false_eq_true, ↓reduceIte, Option.some.injEq] at governs
          subst governs
          obtain ⟨after, rfl⟩ := List.head?_eq_some_iff.1 first
          exact ⟨⟨[], after, rfl, by simp⟩, passed, below, by simpa using ends⟩
      · exact further.cons passed
    next above =>
      left
      simp only [Option.map_eq_some_iff, Prod.mk.injEq] at found
      obtain ⟨held, governs, same, rfl⟩ := found
      exact ⟨same ▸ governs, rfl, UInt64.not_le.1 above⟩

theorem bracketFrom_of_passed (governing : Option α) {before : List α} (rest : List α)
    (passed : ∀ element ∈ before, (row element).address ≤ target) :
    ∃ held, bracketFrom row target governing (before ++ rest) = bracketFrom row target held rest := by
  induction before generalizing governing with
  | nil => exact ⟨governing, rfl⟩
  | cons next before ih =>
    obtain ⟨held, same⟩ := ih (if (row next).endSequence then none else some next)
      (fun element member => passed element (List.mem_cons_of_mem _ member))
    refine ⟨held, ?_⟩
    rw [List.cons_append, bracketFrom, if_pos (passed next List.mem_cons_self)]
    exact same

theorem bracket?_eq_some_iff :
    bracket? row target elements = some (lower, upper) ↔
      Brackets row target elements lower upper := by
  constructor
  · intro found
    rcases brackets_of_bracketFrom found with ⟨governs, _⟩ | brackets
    · cases governs
    · exact brackets
  · intro brackets
    obtain ⟨before, after, rfl, passed⟩ := brackets.neighbours
    obtain ⟨held, same⟩ := bracketFrom_of_passed none (lower :: upper :: after) passed
    rw [bracket?, same, bracketFrom, if_pos brackets.reached, brackets.continues]
    simp only [Bool.false_eq_true, ↓reduceIte, bracketFrom]
    rw [if_neg (UInt64.not_le.2 brackets.below), Option.map_some]

theorem findRow_eq (table : LineTable) (target : UInt64) :
    table.findRow target = (bracket? id target table.rows).map Prod.fst := by
  have plain : bracket? id target table.rows =
      (bracket? Prod.fst target table.rows.zipIdx).map (Prod.map Prod.fst Prod.fst) := by
    have mapped := bracketFrom_map id Prod.fst target none table.rows.zipIdx
    rwa [List.zipIdx_map_fst] at mapped
  rw [findRow, governingIndex?_eq, plain, Option.map_map]
  cases found : bracket? Prod.fst target table.rows.zipIdx with
  | none => rfl
  | some pair =>
    obtain ⟨before, after, split, _⟩ := (bracket?_eq_some_iff.1 found).neighbours
    have member : pair.1 ∈ table.rows.zipIdx := by
      rw [split]
      exact List.mem_append_right _ List.mem_cons_self
    have placed : table.rows[pair.1.2]? = some pair.1.1 := List.mem_zipIdx_iff_getElem?.1 member
    simp [rowAt?, placed]

variable (row) in
theorem findRow_map {table : LineTable} (rows : table.rows = elements.map row) (target : UInt64) :
    table.findRow target = (bracket? row target elements).map fun pair => row pair.1 := by
  have mapped := bracketFrom_map id row target none elements
  rw [findRow_eq, rows, bracket?, ← Option.map_none (f := row), mapped, Option.map_map]
  rfl

theorem Brackets.passed {before after : List α}
    (brackets : Brackets row target (before ++ after) lower upper) (beyond : lower ∉ before)
    (element : α) (member : element ∈ before) : (row element).address ≤ target := by
  obtain ⟨front, back, split, earlier⟩ := brackets.neighbours
  rcases List.append_eq_append_iff.1 split with ⟨more, rfl, _⟩ | ⟨more, rfl, rest⟩
  · exact earlier element (List.mem_append_left _ member)
  · cases more with
    | nil => exact earlier element (by simpa using member)
    | cons first more =>
      rw [List.cons_append, List.cons.injEq] at rest
      exact absurd (by rw [rest.1]; simp) beyond

end Symbolizer.LineTable
