import Symbolizer.Proofs.LineProgram.Emission
import Symbolizer.Proofs.LineTable.Delivery
import Symbolizer.Session

/-!
Rows of different sequences in one table. A table learns where a sequence ends from its last row
alone, and that row is missing when the end of the sequence is silenced or the program stops. Rows
of such a sequence and of the next one make one piece, which is sorted by the first of them. What is
answered across the seam, and what is no longer found, is told here exactly; when every sequence
delivers its last row there is neither.
-/

namespace Symbolizer.LineTable

structure EmittedRow where
  sequence : Nat
  row : LineRow
  deriving DecidableEq, Repr

def emittedRows (header : Dwarf.LineHeader) : Except Dwarf.Fault (List EmittedRow) :=
  header.sequences.map (List.map fun held => ⟨held.1, rowOf held.2⟩)

def tableOrder (emitted : List EmittedRow) : List EmittedRow :=
  arranged EmittedRow.row emitted

def sequenceOf (emitted : List EmittedRow) (number : Nat) : List EmittedRow :=
  emitted.filter (·.sequence = number)

def rowsOf (emitted : List EmittedRow) (number : Nat) : List LineRow :=
  (sequenceOf emitted number).map EmittedRow.row

def inFrontOf (emitted : List EmittedRow) (number : Nat) : List EmittedRow :=
  (tableOrder emitted).takeWhile (·.sequence ≠ number)

def Terminated (emitted : List EmittedRow) (number : Nat) : Prop :=
  ∃ held ∈ emitted, held.sequence = number ∧ held.row.endSequence = true

instance (emitted : List EmittedRow) (number : Nat) : Decidable (Terminated emitted number) :=
  inferInstanceAs (Decidable (∃ held ∈ emitted, held.sequence = number ∧ held.row.endSequence = true))

def Alone (emitted : List EmittedRow) (number : Nat) : Prop :=
  ∀ other, other ≠ number → Apart (rowsOf emitted other) (rowsOf emitted number)

/-- Whatever is answered, the row and the one behind it are of one sequence. -/
def Separated (emitted : List EmittedRow) : Prop :=
  ∀ target lower upper, bracket? EmittedRow.row target (tableOrder emitted) = some (lower, upper) →
    lower.sequence = upper.sequence

/-- The addresses of a terminated sequence that shares none are answered from it. -/
def Answered (emitted : List EmittedRow) : Prop :=
  ∀ number, Terminated emitted number → Alone emitted number →
    ∀ target, Spans (rowsOf emitted number) target →
      ∃ lower upper, bracket? EmittedRow.row target (tableOrder emitted) = some (lower, upper) ∧
        lower.sequence = number

/-- Where a row that ends nothing meets a row of another sequence, the meeting row lies no higher
than some row in front of it. -/
def SeamsHidden (emitted : List EmittedRow) : Prop :=
  ∀ before lower upper after, tableOrder emitted = before ++ lower :: upper :: after →
    lower.sequence ≠ upper.sequence → lower.row.endSequence = false →
      ∃ held ∈ before ++ [lower], upper.row.address ≤ held.row.address

/-- In front of a terminated sequence that shares no address and has some, no row lies above its
first address. -/
def Unobstructed (emitted : List EmittedRow) : Prop :=
  ∀ number, Terminated emitted number → Alone emitted number →
    Spans (rowsOf emitted number) (firstOf EmittedRow.row (sequenceOf emitted number)) →
      ∀ held ∈ inFrontOf emitted number,
        held.row.address ≤ firstOf EmittedRow.row (sequenceOf emitted number)

def Precedes (first second : EmittedRow) : Prop :=
  first.sequence < second.sequence ∨
    first.sequence = second.sequence ∧ first.row.address ≤ second.row.address ∧
      first.row.endSequence = false

variable {emitted : List EmittedRow}

/-! The exact conditions. -/

theorem le_pred_of_lt {a b : UInt64} (below : a < b) : a ≤ b - 1 ∧ b - 1 < b := by
  have positive : (1 : UInt64) ≤ b := by
    rw [UInt64.le_iff_toNat_le]
    rw [UInt64.lt_iff_toNat_lt] at below
    exact Nat.lt_of_le_of_lt (Nat.zero_le _) below
  rw [UInt64.le_iff_toNat_le, UInt64.lt_iff_toNat_lt, UInt64.toNat_sub_of_le _ _ positive]
  rw [UInt64.le_iff_toNat_le] at positive
  rw [UInt64.lt_iff_toNat_lt] at below
  have one : (1 : UInt64).toNat = 1 := rfl
  omega

theorem separated_iff_seamsHidden : Separated emitted ↔ SeamsHidden emitted := by
  constructor
  · intro separated before lower upper after split different continues
    refine Classical.byContradiction fun exposed => ?_
    have below (held : EmittedRow) (member : held ∈ before ++ [lower]) :
        held.row.address < upper.row.address :=
      UInt64.not_le.1 fun above => exposed ⟨held, member, above⟩
    have found : bracket? EmittedRow.row (upper.row.address - 1) (tableOrder emitted) =
        some (lower, upper) := by
      rw [bracket?_eq_some_iff]
      refine ⟨⟨before, after, split, fun held member => ?_⟩, ?_, ?_, continues⟩
      · exact (le_pred_of_lt (below held (List.mem_append_left _ member))).1
      · exact (le_pred_of_lt (below lower (by simp))).1
      · exact (le_pred_of_lt (below lower (by simp))).2
    exact different (separated _ _ _ found)
  · intro hidden target lower upper found
    have brackets := bracket?_eq_some_iff.1 found
    obtain ⟨before, after, split, passed⟩ := brackets.neighbours
    refine Classical.byContradiction fun different => ?_
    obtain ⟨held, member, above⟩ := hidden before lower upper after split different brackets.continues
    have reached : held.row.address ≤ target := by
      rcases List.mem_append.1 member with earlier | last
      · exact passed held earlier
      · rw [List.mem_singleton.1 last]
        exact brackets.reached
    exact UInt64.not_lt.2 (UInt64.le_trans above reached) brackets.below

theorem mem_sequenceOf {number : Nat} {held : EmittedRow} :
    held ∈ sequenceOf emitted number ↔ held ∈ emitted ∧ held.sequence = number := by
  simp [sequenceOf]

theorem sequence_of_mem {number : Nat} {held : EmittedRow} (member : held ∈ sequenceOf emitted number) :
    held.sequence = number :=
  (mem_sequenceOf.1 member).2

theorem Terminated.exists_mem {number : Nat} (terminated : Terminated emitted number) :
    ∃ last ∈ sequenceOf emitted number, last.row.endSequence = true := by
  obtain ⟨last, member, same, ends⟩ := terminated
  exact ⟨last, mem_sequenceOf.2 ⟨member, same⟩, ends⟩

theorem inFrontOf_other {number : Nat} {held : EmittedRow} (member : held ∈ inFrontOf emitted number) :
    held.sequence ≠ number := by
  unfold inFrontOf at member
  have others := List.all_eq_true.1 List.all_takeWhile held member
  simpa using others

theorem inFrontOf_eq {number : Nat} {front back : List EmittedRow} (terminated : Terminated emitted number)
    (split : tableOrder emitted = front ++ (sequenceOf emitted number ++ back))
    (others : ∀ held ∈ front, held.sequence ≠ number) : inFrontOf emitted number = front := by
  obtain ⟨last, inside, _⟩ := terminated.exists_mem
  cases rows : sequenceOf emitted number with
  | nil =>
    rw [rows] at inside
    cases inside
  | cons first rest =>
    have here : first.sequence = number := sequence_of_mem (by rw [rows]; exact List.mem_cons_self)
    rw [inFrontOf, split, rows, List.takeWhile_append_of_pos (by simpa using others), List.cons_append,
      List.takeWhile_cons_of_neg (by simpa using here), List.append_nil]

theorem unobstructed_of_answered (answered : Answered emitted) : Unobstructed emitted := by
  intro number terminated alone spans held member
  obtain ⟨lower, upper, found, inside⟩ := answered number terminated alone _ spans
  have parted : inFrontOf emitted number ++ (tableOrder emitted).dropWhile (·.sequence ≠ number) =
      tableOrder emitted := List.takeWhile_append_dropWhile
  rw [← parted] at found
  exact (bracket?_eq_some_iff.1 found).passed (fun front => inFrontOf_other front inside) held member

/-! Sequences as runs of emitted rows. -/

theorem filter_append_filter_not {α : Type} {p : α → Bool} {elements : List α}
    (closed : elements.Pairwise fun a b => p b = true → p a = true) :
    elements.filter p ++ elements.filter (!p ·) = elements := by
  induction elements with
  | nil => rfl
  | cons next rest ih =>
    obtain ⟨first, closed⟩ := List.pairwise_cons.1 closed
    cases kept : p next with
    | true => simp [kept, ih closed]
    | false =>
      have dropped (other : α) (member : other ∈ rest) : p other = false := by
        have back := first other member
        rw [kept] at back
        simpa using back
      have none : rest.filter p = [] := by simpa using dropped
      have all : rest.filter (!p ·) = rest := by simpa using dropped
      simp [kept, none, all]

variable (ordered : emitted.Pairwise Precedes)
include ordered

theorem split_sequence (number : Nat) :
    emitted = emitted.filter (·.sequence < number) ++
      (sequenceOf emitted number ++ emitted.filter (number < ·.sequence)) := by
  have rising : emitted.Pairwise fun a b => a.sequence ≤ b.sequence := by
    refine ordered.imp fun {a b} first => ?_
    rcases first with below | ⟨same, _⟩
    · exact Nat.le_of_lt below
    · exact Nat.le_of_eq same
  have closed (p : Nat → Bool) (down : ∀ m n, m ≤ n → p n = true → p m = true)
      (elements : List EmittedRow) (sorted : elements.Pairwise fun a b => a.sequence ≤ b.sequence) :
      elements.filter (fun held => p held.sequence) ++ elements.filter (fun held => !p held.sequence) =
        elements :=
    filter_append_filter_not (sorted.imp fun first => down _ _ first)
  have lower := closed (· < number) (by simp; omega) emitted rising
  have upper := closed (· ≤ number) (by simp; omega) _
    (rising.filter fun held => !decide (held.sequence < number))
  rw [List.filter_filter, List.filter_filter] at upper
  have here : emitted.filter (fun held => decide (held.sequence ≤ number) && !decide (held.sequence < number)) =
      sequenceOf emitted number := by
    refine List.filter_congr fun held _ => ?_
    rw [Bool.eq_iff_iff]
    simp
    omega
  have above : emitted.filter (fun held => !decide (held.sequence ≤ number) && !decide (held.sequence < number)) =
      emitted.filter (number < ·.sequence) := by
    refine List.filter_congr fun held _ => ?_
    rw [Bool.eq_iff_iff]
    simp
    omega
  rw [here, above] at upper
  rw [upper, lower]

theorem sequenceOf_pairwise (number : Nat) :
    (sequenceOf emitted number).Pairwise fun a b =>
      a.row.address ≤ b.row.address ∧ a.row.endSequence = false := by
  refine (ordered.filter _).imp_of_mem fun {a b} first second precedes => ?_
  have here := sequence_of_mem first
  have there := sequence_of_mem second
  rcases precedes with below | ⟨_, both⟩
  · omega
  · exact both

theorem sequenceOf_rising (number : Nat) :
    (sequenceOf emitted number).Pairwise fun a b => a.row.address ≤ b.row.address :=
  (sequenceOf_pairwise ordered number).imp And.left

theorem whole_sequenceOf {number : Nat} (terminated : Terminated emitted number) :
    Whole EmittedRow.row (sequenceOf emitted number) := by
  obtain ⟨last, inside, ends⟩ := terminated.exists_mem
  obtain ⟨inner, behind, split⟩ := List.append_of_mem inside
  have pairwise := sequenceOf_pairwise ordered number
  rw [split] at pairwise
  obtain ⟨_, rest, across⟩ := List.pairwise_append.1 pairwise
  have final : behind = [] := by
    cases behind with
    | nil => rfl
    | cons next more =>
      have goes_on := ((List.pairwise_cons.1 rest).1 next List.mem_cons_self).2
      rw [ends] at goes_on
      cases goes_on
  rw [split, final]
  exact ⟨inner, last, rfl, ends, fun held early => (across held early last List.mem_cons_self).2⟩

/-- A piece ends with the terminated sequence, whatever it begins with. -/
theorem piece_of_terminated {number : Nat} (terminated : Terminated emitted number) :
    ∃ head, head ++ sequenceOf emitted number ∈ cut EmittedRow.row emitted := by
  have whole := whole_sequenceOf ordered terminated
  obtain ⟨pieces, head, run, _⟩ := cut_run whole (emitted.filter (·.sequence < number))
  refine ⟨head, ?_⟩
  obtain ⟨inner, last, split, ends, _⟩ := whole
  have parts := split_sequence ordered number
  rw [split] at parts run
  rw [split, parts, List.append_assoc inner, List.singleton_append, ← List.append_assoc,
    cut_behind ends, List.append_assoc, run]
  simp

/-- In its table a terminated sequence stands together, behind rows of other sequences only. -/
theorem tableOrder_split {number : Nat} (terminated : Terminated emitted number) :
    ∃ back, tableOrder emitted = inFrontOf emitted number ++ (sequenceOf emitted number ++ back) := by
  obtain ⟨head, piece⟩ := piece_of_terminated ordered terminated
  obtain ⟨before, after, order⟩ := List.append_of_mem ((inOrder_perm EmittedRow.row _).mem_iff.2 piece)
  obtain ⟨front, back, split⟩ : ∃ front back,
      tableOrder emitted = front ++ (sequenceOf emitted number ++ back) := by
    refine ⟨before.flatten ++ head, after.flatten, ?_⟩
    simp only [tableOrder, arranged, order, List.flatten_append, List.flatten_cons, List.append_assoc]
  -- As many rows of the sequence are in the table as there are in the sequence itself.
  have kept : ((tableOrder emitted).filter (·.sequence = number)).length =
      (sequenceOf emitted number).length :=
    ((arranged_perm EmittedRow.row emitted).filter (·.sequence = number)).length_eq
  have own : (sequenceOf emitted number).filter (·.sequence = number) = sequenceOf emitted number :=
    List.filter_eq_self.2 fun held member => by simpa using sequence_of_mem member
  rw [split, List.filter_append, List.filter_append, own, List.length_append, List.length_append] at kept
  have none : front.filter (·.sequence = number) = [] := by
    apply List.eq_nil_of_length_eq_zero
    omega
  refine ⟨back, ?_⟩
  rw [inFrontOf_eq terminated split (by simpa using none)]
  exact split

theorem answered_of_unobstructed (unobstructed : Unobstructed emitted) : Answered emitted := by
  intro number terminated alone target spans
  obtain ⟨back, split⟩ := tableOrder_split ordered terminated
  have low := unobstructed number terminated alone (firstOf_spanned spans)
  obtain ⟨lower, upper, found, inside, _⟩ := bracket?_of_spans (inFrontOf emitted number) back
    (fun held member => UInt64.le_trans (low held member) (firstOf_reached spans))
    (whole_sequenceOf ordered terminated) (sequenceOf_rising ordered number) spans
  exact ⟨lower, upper, by rw [split, found], sequence_of_mem inside⟩

theorem answered_iff_unobstructed : Answered emitted ↔ Unobstructed emitted :=
  ⟨unobstructed_of_answered, answered_of_unobstructed ordered⟩

/-! When every sequence delivers the row that ends it. -/

theorem flatten_range_sequenceOf (bound : Nat) :
    ((List.range bound).map (sequenceOf emitted)).flatten = emitted.filter (·.sequence < bound) := by
  induction bound with
  | zero => simp
  | succ bound ih =>
    have low : (emitted.filter (·.sequence < bound)).filter (·.sequence < bound + 1) =
        emitted.filter (·.sequence < bound) := by
      simp only [List.filter_eq_self, List.mem_filter, decide_eq_true_eq]
      omega
    have here : (sequenceOf emitted bound).filter (·.sequence < bound + 1) = sequenceOf emitted bound := by
      refine List.filter_eq_self.2 fun held member => ?_
      simp [sequence_of_mem member]
    have high : (emitted.filter (bound < ·.sequence)).filter (·.sequence < bound + 1) = [] := by
      simp only [List.filter_eq_nil_iff, List.mem_filter, decide_eq_true_eq]
      omega
    have parts := congrArg (List.filter (·.sequence < bound + 1)) (split_sequence ordered bound)
    rw [List.filter_append, List.filter_append, low, here, high, List.append_nil] at parts
    rw [List.range_succ, List.map_append, List.flatten_append, ih, parts]
    simp

variable (terminated : ∀ held ∈ emitted, Terminated emitted held.sequence)
include terminated

theorem cut_of_terminated {piece : List EmittedRow} (member : piece ∈ cut EmittedRow.row emitted) :
    ∃ number, Terminated emitted number ∧ piece = sequenceOf emitted number := by
  obtain ⟨bound, beyond⟩ : ∃ bound, ∀ held ∈ emitted, held.sequence < bound := by
    clear ordered terminated member
    induction emitted with
    | nil => exact ⟨0, nofun⟩
    | cons next rest ih =>
      obtain ⟨bound, beyond⟩ := ih
      refine ⟨max bound (next.sequence + 1), List.forall_mem_cons.2 ⟨by omega, fun held later => ?_⟩⟩
      have := beyond held later
      omega
  let pieces := ((List.range bound).map (sequenceOf emitted)).filter (· ≠ [])
  have known (other : List EmittedRow) (present : other ∈ pieces) :
      ∃ number, Terminated emitted number ∧ other = sequenceOf emitted number := by
    obtain ⟨listed, nonempty⟩ := List.mem_filter.1 present
    obtain ⟨number, _, rfl⟩ := List.mem_map.1 listed
    obtain ⟨held, inside⟩ := List.exists_mem_of_ne_nil _ (by simpa using nonempty)
    obtain ⟨emits, same⟩ := mem_sequenceOf.1 inside
    exact ⟨number, same ▸ terminated held emits, rfl⟩
  have joined : pieces.flatten = emitted := by
    rw [List.flatten_filter_ne_nil, flatten_range_sequenceOf ordered]
    exact List.filter_eq_self.2 fun held present => by simpa using beyond held present
  have cuts : cut EmittedRow.row emitted = pieces := by
    rw [← joined]
    refine cut_flatten fun other present => ?_
    obtain ⟨number, ended, same⟩ := known other present
    exact same ▸ whole_sequenceOf ordered ended
  exact known piece (cuts ▸ member)

theorem mem_cut_of_terminated {number : Nat} (ended : Terminated emitted number) :
    sequenceOf emitted number ∈ cut EmittedRow.row emitted := by
  obtain ⟨last, member, same, _⟩ := ended
  rw [← flatten_cut EmittedRow.row emitted] at member
  obtain ⟨piece, cuts, inside⟩ := List.mem_flatten.1 member
  obtain ⟨other, _, rfl⟩ := cut_of_terminated ordered terminated cuts
  have equal : other = number := (sequence_of_mem inside).symm.trans same
  exact equal ▸ cuts

theorem seamsHidden_of_terminated : SeamsHidden emitted := by
  intro before lower upper after split different continues
  have whole (piece : List EmittedRow) (member : piece ∈ inOrder EmittedRow.row (cut EmittedRow.row emitted)) :
      Whole EmittedRow.row piece := by
    obtain ⟨number, ended, rfl⟩ := cut_of_terminated ordered terminated ((inOrder_perm _ _).mem_iff.1 member)
    exact whole_sequenceOf ordered ended
  obtain ⟨piece, member, first, second⟩ := neighbours_in_piece whole split continues
  obtain ⟨number, _, rfl⟩ := cut_of_terminated ordered terminated ((inOrder_perm _ _).mem_iff.1 member)
  exact absurd ((sequence_of_mem first).trans (sequence_of_mem second).symm) different

theorem unobstructed_of_terminated : Unobstructed emitted := by
  intro number ended alone spans
  have piece := (inOrder_perm EmittedRow.row _).mem_iff.2 (mem_cut_of_terminated ordered terminated ended)
  obtain ⟨front, back, order, fresh⟩ := List.eq_append_cons_of_mem piece
  have others (other : List EmittedRow) (member : other ∈ front) :
      ∃ different, different ≠ number ∧ other = sequenceOf emitted different := by
    have cuts : other ∈ cut EmittedRow.row emitted :=
      (inOrder_perm _ _).mem_iff.1 (by rw [order]; exact List.mem_append_left _ member)
    obtain ⟨different, _, rfl⟩ := cut_of_terminated ordered terminated cuts
    exact ⟨different, fun same => fresh (same ▸ member), rfl⟩
  have split : tableOrder emitted = front.flatten ++ (sequenceOf emitted number ++ back.flatten) := by
    simp only [tableOrder, arranged, order, List.flatten_append, List.flatten_cons]
  have same : inFrontOf emitted number = front.flatten := by
    refine inFrontOf_eq ended split fun held member => ?_
    obtain ⟨other, inside, here⟩ := List.mem_flatten.1 member
    obtain ⟨different, unequal, rfl⟩ := others other inside
    exact sequence_of_mem here ▸ unequal
  rw [same]
  refine passed_of_apart order (fun other member => ?_) (fun other member target both => ?_) spans
  · obtain ⟨different, _, rfl⟩ := others other member
    exact sequenceOf_rising ordered different
  · obtain ⟨different, unequal, rfl⟩ := others other member
    exact alone different unequal target both

omit ordered terminated

/-! Tables of units as a session reads them. -/

theorem ofNat_le {a b : Nat} (below : a ≤ b) (fits : b < 2 ^ 64) : UInt64.ofNat a ≤ UInt64.ofNat b := by
  rw [UInt64.ofNat_le_iff (Nat.lt_of_le_of_lt below fits), UInt64.toNat_ofNat_of_lt' fits]
  exact below

theorem precedes_of_emittedRows {header : Dwarf.LineHeader} (narrow : header.encoding.addressSize ≤ 8)
    (ran : emittedRows header = .ok emitted) : emitted.Pairwise Precedes := by
  cases delivered : header.sequences with
  | error fault =>
    rw [emittedRows, delivered] at ran
    cases ran
  | ok rows =>
    rw [emittedRows, delivered] at ran
    cases ran
    have ordered := Dwarf.ordered_runSequences rfl (Nat.zero_le _) delivered
    have wide : Dwarf.maxAddress header.encoding.addressSize < 2 ^ 64 := by
      have power : 2 ^ (8 * header.encoding.addressSize) ≤ 2 ^ 64 :=
        Nat.pow_le_pow_right (by decide) (by omega)
      rw [Dwarf.maxAddress, Nat.one_shiftLeft]
      omega
    refine List.pairwise_map.2 (ordered.pairwise.imp_of_mem fun {a b} _ member precedes => ?_)
    rcases precedes with below | ⟨same, rises, goes_on⟩
    · exact .inl below
    · exact .inr ⟨same, ofNat_le rises (Nat.lt_of_le_of_lt (ordered.fits b member) wide), goes_on⟩

theorem narrow_of_readUnit {sections : Dwarf.Sections} {offset : Nat} {data : UnitLines}
    (reads : readUnit sections offset = .ok data) :
    (∀ header ∈ data.unit.lineHeader, header.encoding.addressSize ≤ 8) ∧
      read? sections data.unit = .ok data.lines := by
  obtain ⟨header, first, reads⟩ := bind_eq_ok.1 reads
  obtain ⟨unit, second, reads⟩ := bind_eq_ok.1 reads
  obtain ⟨lines, third, same⟩ := bind_eq_ok.1 reads
  cases same
  have narrow := Dwarf.Read.runAt_ensures Dwarf.UnitHeader.ensures_read (mapDwarf_eq_ok.1 first)
  have sound := Dwarf.CompilationUnit.lineHeader_sound (mapDwarf_eq_ok.1 second)
  exact ⟨fun program member => (sound program member).narrow narrow, third⟩

theorem emittedRows_of_read? {sections : Dwarf.Sections} {unit : Dwarf.CompilationUnit} {table : LineTable}
    (reads : read? sections unit = .ok (some table)) :
    ∃ header emitted, unit.lineHeader = some header ∧ emittedRows header = .ok emitted ∧
      table.rows = (tableOrder emitted).map EmittedRow.row := by
  unfold read? at reads
  split at reads
  next => cases reads
  next header program =>
    obtain ⟨files, _, reads⟩ := bind_eq_ok.1 reads
    have erased := Dwarf.map_sequences header
    cases delivered : header.sequences with
    | error fault =>
      rw [delivered] at erased
      rw [← erased] at reads
      cases reads
    | ok tagged =>
      rw [delivered] at erased
      rw [← erased] at reads
      cases reads
      refine ⟨header, tagged.map fun held => ⟨held.1, rowOf held.2⟩, program, ?_, ?_⟩
      · rw [emittedRows, delivered]
        rfl
      · rw [tableOrder, map_arranged, ofRows, List.map_map, List.map_map]
        rfl

/-- When the rows of different sequences stay apart in the table of a unit, and when each terminated
sequence that shares no address answers for its own. -/
theorem separated_answered_iff {sections : Dwarf.Sections} {offset : Nat} {unit : Dwarf.CompilationUnit}
    {table : LineTable} (reads : readUnit sections offset = .ok ⟨unit, some table⟩) :
    ∃ header emitted, unit.lineHeader = some header ∧ emittedRows header = .ok emitted ∧
      table.rows = (tableOrder emitted).map EmittedRow.row ∧
      (∀ target, table.findRow target =
        (bracket? EmittedRow.row target (tableOrder emitted)).map fun pair => pair.1.row) ∧
      (Separated emitted ↔ SeamsHidden emitted) ∧ (Answered emitted ↔ Unobstructed emitted) ∧
      ((∀ held ∈ emitted, Terminated emitted held.sequence) → Separated emitted ∧ Answered emitted) := by
  obtain ⟨narrow, parsed⟩ := narrow_of_readUnit reads
  obtain ⟨header, emitted, program, ran, rows⟩ := emittedRows_of_read? parsed
  have ordered := precedes_of_emittedRows (narrow header program) ran
  refine ⟨header, emitted, program, ran, rows, findRow_map EmittedRow.row rows, separated_iff_seamsHidden,
    answered_iff_unobstructed ordered, fun terminated => ⟨?_, ?_⟩⟩
  · exact separated_iff_seamsHidden.2 (seamsHidden_of_terminated ordered terminated)
  · exact answered_of_unobstructed ordered (unobstructed_of_terminated ordered terminated)

/-- A unit of four sequences, of which the first and the third are silenced at their ends. -/
def silencedEnds : Dwarf.Sections :=
  { noSections with
    info := [0x18, 0, 0, 0, 4, 0, 0, 0, 0, 0, 8, 1, 0, 0, 0, 0, 0, 0x10, 0, 0, 0, 0, 0, 0, 0, 0x50, 0, 0]
    abbreviations := [1, 0x11, 0, 0x10, 0x17, 0x11, 1, 0x12, 6, 0, 0, 0]
    line := [
      0x79, 0, 0, 0, 4, 0, 0x1b, 0, 0, 0, 1, 1, 1, 0xfb, 0xe, 0xd, 0, 1, 1, 1, 1, 0, 0, 0, 1, 0, 0, 1,
      0, 0x61, 0x2e, 0x63, 0, 0, 0, 0, 0,
      0, 9, 2, 0, 0x30, 0, 0, 0, 0, 0, 0, 1,
      0, 9, 2, 0xff, 0xff, 0xff, 0xff, 0xff, 0xff, 0xff, 0xff, 0, 1, 1,
      0, 9, 2, 0, 0x10, 0, 0, 0, 0, 0, 0, 3, 9, 1, 2, 0x10, 0, 1, 1,
      0, 9, 2, 0, 0x40, 0, 0, 0, 0, 0, 0, 1,
      0, 9, 2, 0xff, 0xff, 0xff, 0xff, 0xff, 0xff, 0xff, 0xff, 0, 1, 1,
      0, 9, 2, 0, 0x50, 0, 0, 0, 0, 0, 0, 1, 2, 0x10, 0, 1, 1] }

def silencedRows : List EmittedRow :=
  [⟨0, ⟨0x3000, 1, 1, 0, false⟩⟩, ⟨1, ⟨0x1000, 1, 10, 0, false⟩⟩, ⟨1, ⟨0x1010, 1, 10, 0, true⟩⟩,
    ⟨2, ⟨0x4000, 1, 1, 0, false⟩⟩, ⟨3, ⟨0x5000, 1, 1, 0, false⟩⟩, ⟨3, ⟨0x5010, 1, 1, 0, true⟩⟩]

theorem separated_answered_iff_silencedEnds :
    ∃ unit table, readUnit silencedEnds 0 = .ok ⟨unit, some table⟩ ∧
      ∃ header emitted, unit.lineHeader = some header ∧ emittedRows header = .ok emitted ∧
        table.rows = (tableOrder emitted).map EmittedRow.row ∧
        (Separated emitted ↔ SeamsHidden emitted) ∧ (Answered emitted ↔ Unobstructed emitted) := by
  have reads : ∃ unit table, readUnit silencedEnds 0 = .ok ⟨unit, some table⟩ := by
    refine ⟨?_, ?_, ?_⟩
    rotate_left 2
    conv => lhs; cbv
  obtain ⟨unit, table, reads⟩ := reads
  obtain ⟨header, emitted, program, ran, rows, _, separated, answered, _⟩ := separated_answered_iff reads
  exact ⟨unit, table, reads, header, emitted, program, ran, rows, separated, answered⟩

theorem alone_silencedRows : Alone silencedRows 1 := by
  intro other unequal
  match other with
  | 0 | 2 =>
    intro target ⟨within, _⟩
    obtain ⟨reached, below⟩ := spans_cons.1 within
    exact UInt64.not_lt.2 reached below
  | 1 => exact absurd rfl unequal
  | 3 => exact (apart_of_le (by decide)).symm
  | other + 4 =>
    intro target ⟨⟨_, _, head, _⟩, _⟩
    cases head

/-- A row of the third sequence answers where it meets the fourth, and the second is not found. -/
theorem not_separated_not_answered_silencedEnds :
    ∃ unit table header, readUnit silencedEnds 0 = .ok ⟨unit, some table⟩ ∧
      unit.lineHeader = some header ∧ emittedRows header = .ok silencedRows ∧
      table.findRow 0x4800 = some ⟨0x4000, 1, 1, 0, false⟩ ∧ ¬Separated silencedRows ∧
      table.findRow 0x1008 = none ∧ ¬Answered silencedRows := by
  refine ⟨?_, ?_, ?_, ?_, ?_, ?_, ?_, ?_, ?_, ?_⟩
  rotate_left 3
  · conv => lhs; cbv
  · rfl
  · cbv
  · cbv
  · intro separated
    have found : bracket? EmittedRow.row 0x4800 (tableOrder silencedRows) =
        some (⟨2, ⟨0x4000, 1, 1, 0, false⟩⟩, ⟨3, ⟨0x5000, 1, 1, 0, false⟩⟩) := by cbv
    exact absurd (separated _ _ _ found) (by decide)
  · cbv
  · intro answered
    obtain ⟨lower, upper, found, _⟩ := answered 1 (by decide) alone_silencedRows 0x1008 (by decide)
    have none : bracket? EmittedRow.row 0x1008 (tableOrder silencedRows) = none := by cbv
    rw [none] at found
    cases found

end Symbolizer.LineTable
