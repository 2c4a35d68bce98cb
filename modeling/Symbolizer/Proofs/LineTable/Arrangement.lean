import Symbolizer.Proofs.LineTable.Scan

/-!
How a table puts its rows in order: cut into pieces behind every row that ends a sequence, pieces
sorted by their first addresses. A whole piece, one that its last row alone ends, is answered from
for every address that it spans when nothing in front of it lies above its first address.
-/

namespace Symbolizer.LineTable

variable {α : Type} (row : α → LineRow)

/-- Elements cut behind every one whose row ends a sequence; those left over make a last piece. -/
def cut : List α → List (List α)
  | [] => []
  | next :: rest =>
    if (row next).endSequence then [next] :: cut rest
    else
      match cut rest with
      | [] => [[next]]
      | piece :: more => (next :: piece) :: more

def firstOf (piece : List α) : UInt64 :=
  firstAddress (piece.map row)

/-- Pieces in the order of their first addresses; equal ones keep their order. -/
def inOrder (pieces : List (List α)) : List (List α) :=
  pieces.mergeSort fun a b => firstOf row a ≤ firstOf row b

def arranged (elements : List α) : List α :=
  (inOrder row (cut row elements)).flatten

theorem map_cut (elements : List α) :
    (cut row elements).map (List.map row) = sequences (elements.map row) := by
  induction elements with
  | nil => rfl
  | cons next rest ih =>
    simp only [cut, List.map_cons, sequences]
    split
    · simp only [List.map_cons, List.map_nil, ih]
    · rw [← ih]
      cases cut row rest with
      | nil => rfl
      | cons piece more => rfl

theorem map_arranged (elements : List α) :
    (arranged row elements).map row = flatten (sequences (elements.map row)) := by
  rw [arranged, flatten, List.map_flatten, ← map_cut, inOrder]
  congr 1
  exact List.map_mergeSort fun a _ b _ => rfl

theorem flatten_cut (elements : List α) : (cut row elements).flatten = elements := by
  induction elements with
  | nil => rfl
  | cons next rest ih =>
    simp only [cut]
    split
    · rw [List.flatten_cons, ih, List.singleton_append]
    · cases pieces : cut row rest with
      | nil =>
        rw [pieces, List.flatten_nil] at ih
        simp [← ih]
      | cons piece more =>
        rw [pieces, List.flatten_cons] at ih
        rw [List.flatten_cons, List.cons_append, ih]

theorem inOrder_perm (pieces : List (List α)) : (inOrder row pieces).Perm pieces :=
  List.mergeSort_perm _ _

theorem arranged_perm (elements : List α) : (arranged row elements).Perm elements := by
  have joined := (inOrder_perm row (cut row elements)).flatten
  rwa [flatten_cut] at joined

theorem inOrder_pairwise (pieces : List (List α)) :
    (inOrder row pieces).Pairwise fun a b => firstOf row a ≤ firstOf row b := by
  have sorted : (inOrder row pieces).Pairwise fun a b => decide (firstOf row a ≤ firstOf row b) = true := by
    apply List.pairwise_mergeSort
    · intro a b c first second
      simp only [decide_eq_true_eq] at first second ⊢
      exact UInt64.le_trans first second
    · intro a b
      simpa using UInt64.le_total (firstOf row a) (firstOf row b)
  simpa only [decide_eq_true_eq] using sorted

/-- The addresses from the first row up to and not including the last. -/
def Spans (rows : List LineRow) (target : UInt64) : Prop :=
  ∃ first last, rows.head? = some first ∧ rows.getLast? = some last ∧
    first.address ≤ target ∧ target < last.address

theorem spans_cons {first : LineRow} {rest : List LineRow} {target : UInt64} :
    Spans (first :: rest) target ↔
      first.address ≤ target ∧ target < ((first :: rest).getLast (List.cons_ne_nil _ _)).address := by
  simp [Spans, List.getLast?_eq_some_getLast (List.cons_ne_nil first rest)]

instance (rows : List LineRow) (target : UInt64) : Decidable (Spans rows target) :=
  match rows with
  | [] => isFalse fun ⟨_, _, head, _⟩ => nomatch head
  | _ :: _ => decidable_of_iff _ spans_cons.symm

def lastUpTo? (target : UInt64) (rows : List LineRow) : Option LineRow :=
  (rows.filter fun held => held.address ≤ target).getLast?

/-! Where cuts fall. -/

/-- The last row of the piece ends it, and no other row does. -/
def Whole (piece : List α) : Prop :=
  ∃ inner last, piece = inner ++ [last] ∧ (row last).endSequence = true ∧
    ∀ element ∈ inner, (row element).endSequence = false

variable {row}

theorem cut_behind {last : α} (ends : (row last).endSequence = true) (front back : List α) :
    cut row (front ++ last :: back) = cut row (front ++ [last]) ++ cut row back := by
  induction front with
  | nil => simp [cut, ends]
  | cons next front ih =>
    simp only [List.cons_append, cut]
    rw [ih]
    split
    · rfl
    · cases pieces : cut row (front ++ [last]) with
      | nil =>
        have joined := flatten_cut row (front ++ [last])
        simp [pieces] at joined
      | cons piece more => rfl

theorem cut_whole {piece : List α} (whole : Whole row piece) : cut row piece = [piece] := by
  obtain ⟨inner, last, rfl, ends, goes_on⟩ := whole
  induction inner with
  | nil => simp [cut, ends]
  | cons next inner ih =>
    have rest := ih fun element member => goes_on element (List.mem_cons_of_mem _ member)
    simp [cut, goes_on next List.mem_cons_self, rest]

/-- A whole run of elements ends one piece, which may have begun with what stands in front. -/
theorem cut_run {tail : List α} (whole : Whole row tail) (front : List α) :
    ∃ pieces head, cut row (front ++ tail) = pieces ++ [head ++ tail] ∧ pieces.flatten ++ head = front := by
  induction front with
  | nil => exact ⟨[], [], by simpa using cut_whole whole, rfl⟩
  | cons next front ih =>
    obtain ⟨pieces, head, split, joined⟩ := ih
    rw [List.cons_append, cut, split]
    by_cases stops : (row next).endSequence = true
    · exact ⟨[next] :: pieces, head, by simp [stops], by simp [joined]⟩
    · cases pieces with
      | nil => exact ⟨[], next :: head, by simp [stops], by simpa using joined⟩
      | cons piece more => exact ⟨(next :: piece) :: more, head, by simp [stops], by simp [← joined]⟩

theorem cut_flatten {pieces : List (List α)} (whole : ∀ piece ∈ pieces, Whole row piece) :
    cut row pieces.flatten = pieces := by
  induction pieces with
  | nil => rfl
  | cons piece more ih =>
    have rest := ih fun other member => whole other (List.mem_cons_of_mem _ member)
    have here := whole piece List.mem_cons_self
    have alone := cut_whole here
    obtain ⟨inner, last, rfl, ends, _⟩ := here
    rw [List.flatten_cons, List.append_assoc, List.singleton_append, cut_behind ends, alone, rest,
      List.singleton_append]

/-! Answers from a piece. -/

/-- Rising elements that span a target have two neighbours around it. -/
theorem neighbours_of_spans {target : UInt64} {piece : List α}
    (rising : piece.Pairwise fun a b => (row a).address ≤ (row b).address)
    (spans : Spans (piece.map row) target) :
    ∃ before lower upper after, piece = before ++ lower :: upper :: after ∧
      (∀ element ∈ before ++ [lower], (row element).address ≤ target) ∧
        ∀ element ∈ upper :: after, target < (row element).address := by
  obtain ⟨first, last, head, foot, reached, below⟩ := spans
  induction piece generalizing first with
  | nil => cases head
  | cons next rest ih =>
    simp only [List.map_cons, List.head?_cons, Option.some.injEq] at head
    subst head
    obtain ⟨onward, rising⟩ := List.pairwise_cons.1 rising
    cases rest with
    | nil =>
      simp only [List.map_cons, List.map_nil, List.getLast?_singleton, Option.some.injEq] at foot
      subst foot
      exact absurd reached (UInt64.not_le.2 below)
    | cons second rest =>
      by_cases further : (row second).address ≤ target
      · have foot' : ((second :: rest).map row).getLast? = some last := by
          simpa only [List.map_cons, List.getLast?_cons_cons] using foot
        obtain ⟨before, lower, upper, after, split, low, high⟩ := ih rising (row second) rfl foot' further
        refine ⟨next :: before, lower, upper, after, by rw [split, List.cons_append], ?_, high⟩
        intro element member
        rcases List.mem_cons.1 member with same | later
        · exact same ▸ reached
        · exact low element later
      · refine ⟨[], next, second, rest, rfl, by simpa using reached, ?_⟩
        intro element member
        have above := UInt64.not_le.1 further
        rcases List.mem_cons.1 member with same | later
        · exact same ▸ above
        · exact UInt64.lt_of_lt_of_le above ((List.pairwise_cons.1 rising).1 element later)

theorem Whole.goes_on {piece before after : List α} {lower upper : α} (whole : Whole row piece)
    (split : piece = before ++ lower :: upper :: after) : (row lower).endSequence = false := by
  obtain ⟨inner, last, same, _, goes_on⟩ := whole
  have shorter := congrArg List.dropLast (split.symm.trans same)
  rw [List.dropLast_concat, List.dropLast_append_cons] at shorter
  exact goes_on lower (by rw [← shorter]; simp)

/-- A whole rising piece answers for what it spans, behind rows that the target has passed. -/
theorem bracket?_of_spans {target : UInt64} {piece : List α} (front back : List α)
    (passed : ∀ element ∈ front, (row element).address ≤ target) (whole : Whole row piece)
    (rising : piece.Pairwise fun a b => (row a).address ≤ (row b).address)
    (spans : Spans (piece.map row) target) :
    ∃ lower upper, bracket? row target (front ++ (piece ++ back)) = some (lower, upper) ∧
      lower ∈ piece ∧ lastUpTo? target (piece.map row) = some (row lower) := by
  obtain ⟨before, lower, upper, after, split, low, high⟩ := neighbours_of_spans rising spans
  refine ⟨lower, upper, ?_, by rw [split]; simp, ?_⟩
  · rw [bracket?_eq_some_iff]
    refine ⟨⟨front ++ before, after ++ back, by simp [split], ?_⟩, low lower (by simp),
      high upper (by simp), whole.goes_on split⟩
    intro element member
    rcases List.mem_append.1 member with outside | inside
    · exact passed element outside
    · exact low element (List.mem_append_left _ inside)
  · have kept : ((before ++ [lower]).map row).filter (fun held => held.address ≤ target) =
        (before ++ [lower]).map row := by
      rw [List.filter_eq_self, List.forall_mem_map]
      exact fun element member => decide_eq_true (low element member)
    have dropped : ((upper :: after).map row).filter (fun held => held.address ≤ target) = [] := by
      rw [List.filter_eq_nil_iff, List.forall_mem_map]
      intro element member
      simpa using high element member
    have regrouped : piece = (before ++ [lower]) ++ (upper :: after) := by simp [split]
    rw [lastUpTo?, regrouped, List.map_append, List.filter_append, kept, dropped, List.append_nil,
      List.map_append, List.map_cons, List.map_nil, List.getLast?_concat]

theorem spans_of_mem {target : UInt64} {piece : List α} {element : α} (member : element ∈ piece)
    (rising : piece.Pairwise fun a b => (row a).address ≤ (row b).address)
    (reached : firstOf row piece ≤ target) (below : target < (row element).address) :
    Spans (piece.map row) target := by
  cases piece with
  | nil => cases member
  | cons first rest =>
    have whole_list : first :: rest = (first :: rest).dropLast ++ [(first :: rest).getLast (by simp)] :=
      (List.dropLast_concat_getLast (by simp)).symm
    refine ⟨row first, row ((first :: rest).getLast (by simp)), rfl, ?_, reached, ?_⟩
    · rw [List.getLast?_map, List.getLast?_eq_some_getLast (by simp), Option.map_some]
    · rw [whole_list] at member rising
      rcases List.mem_append.1 member with inner | last
      · exact UInt64.lt_of_lt_of_le below
          ((List.pairwise_append.1 rising).2.2 element inner _ (List.mem_singleton_self _))
      · rwa [List.mem_singleton.1 last] at below

theorem firstOf_le {piece : List α} {element : α} (member : element ∈ piece)
    (rising : piece.Pairwise fun a b => (row a).address ≤ (row b).address) :
    firstOf row piece ≤ (row element).address := by
  cases piece with
  | nil => cases member
  | cons first rest =>
    rcases List.mem_cons.1 member with same | later
    · exact same ▸ UInt64.le_refl _
    · exact (List.pairwise_cons.1 rising).1 element later

theorem firstOf_eq {piece : List α} {first : LineRow} (head : (piece.map row).head? = some first) :
    firstOf row piece = first.address := by
  rw [firstOf, firstAddress, head]
  rfl

theorem firstOf_reached {target : UInt64} {piece : List α} (spans : Spans (piece.map row) target) :
    firstOf row piece ≤ target := by
  obtain ⟨first, _, head, _, reached, _⟩ := spans
  exact firstOf_eq head ▸ reached

theorem firstOf_spanned {target : UInt64} {piece : List α} (spans : Spans (piece.map row) target) :
    Spans (piece.map row) (firstOf row piece) := by
  have reached := firstOf_reached spans
  obtain ⟨first, last, head, foot, _, below⟩ := spans
  exact ⟨first, last, head, foot, UInt64.le_of_eq (firstOf_eq head).symm,
    UInt64.lt_of_le_of_lt reached below⟩

theorem neighbours_in_piece {pieces : List (List α)} (whole : ∀ piece ∈ pieces, Whole row piece)
    {before after : List α} {lower upper : α}
    (split : pieces.flatten = before ++ lower :: upper :: after)
    (continues : (row lower).endSequence = false) :
    ∃ piece ∈ pieces, lower ∈ piece ∧ upper ∈ piece := by
  induction pieces generalizing before with
  | nil => simp at split
  | cons piece more ih =>
    have rest := fun other member => whole other (List.mem_cons_of_mem piece member)
    rw [List.flatten_cons, List.append_eq_append_iff] at split
    rcases split with ⟨beyond, _, later⟩ | ⟨tail, here, there⟩
    · obtain ⟨other, member, both⟩ := ih rest later
      exact ⟨other, List.mem_cons_of_mem _ member, both⟩
    · match tail, there with
      | [], there =>
        obtain ⟨other, member, both⟩ := @ih rest [] there.symm
        exact ⟨other, List.mem_cons_of_mem _ member, both⟩
      | [_], there =>
        obtain ⟨rfl, _⟩ := List.cons.inj there
        obtain ⟨inner, last, same, ends, _⟩ := whole piece List.mem_cons_self
        have lasts := congrArg List.getLast? (same.symm.trans here)
        rw [List.getLast?_concat, List.getLast?_concat, Option.some.injEq] at lasts
        rw [lasts, continues] at ends
        cases ends
      | _ :: _ :: _, there =>
        simp only [List.cons_append, List.cons.injEq] at there
        obtain ⟨rfl, rfl, _⟩ := there
        exact ⟨piece, List.mem_cons_self, by rw [here]; simp, by rw [here]; simp⟩

/-- In front of a piece that shares no address with the pieces there, nothing lies above its start. -/
theorem passed_of_apart {pieces front back : List (List α)} {piece : List α}
    (order : inOrder row pieces = front ++ piece :: back)
    (rising : ∀ other ∈ front, other.Pairwise fun a b => (row a).address ≤ (row b).address)
    (apart : ∀ other ∈ front, ∀ target,
      ¬(Spans (other.map row) target ∧ Spans (piece.map row) target))
    {target : UInt64} (spans : Spans (piece.map row) target) :
    ∀ element ∈ front.flatten, (row element).address ≤ firstOf row piece := by
  intro element member
  obtain ⟨other, here, inside⟩ := List.mem_flatten.1 member
  have sorted := inOrder_pairwise row pieces
  rw [order] at sorted
  have earlier := (List.pairwise_append.1 sorted).2.2 other here piece List.mem_cons_self
  refine UInt64.not_lt.1 fun above => ?_
  have shared := spans_of_mem inside (rising other here) earlier above
  exact apart other here _ ⟨shared, firstOf_spanned spans⟩

end Symbolizer.LineTable
