import Symbolizer.Proofs.LineTable.Arrangement

/-!
Tables of line programs that deliver whole sequences. When no address is in two of them, the table
answers an address from the sequence it is in, with the last row at or below it, and no other
address is answered. The order in which the sequences are delivered makes no difference.
-/

namespace Symbolizer.LineTable

/-- The line program of a unit runs to its end and delivers some rows, and all files have names. -/
def Delivers (sections : Dwarf.Sections) (unit : Dwarf.CompilationUnit) (rows : List LineRow) : Prop :=
  ∃ header files, unit.lineHeader = some header ∧ header.rows.map (List.map rowOf) = .ok rows ∧
    header.files.mapM (renderFile sections unit header) = .ok files

theorem read?_of_delivers {sections : Dwarf.Sections} {unit : Dwarf.CompilationUnit}
    {rows : List LineRow} (delivers : Delivers sections unit rows) :
    ∃ files firstFile, read? sections unit = .ok (some (ofRows rows files firstFile)) := by
  obtain ⟨header, files, program, runs, named⟩ := delivers
  refine ⟨files, firstFileOf header, ?_⟩
  cases delivered : header.rows with
  | error cause =>
    rw [delivered] at runs
    cases runs
  | ok registers =>
    rw [delivered] at runs
    cases runs
    simp only [read?, program, named, delivered, bind, Except.bind, pure, Except.pure]

/-- Rows as one sequence has them: their addresses never fall, and the last alone ends it. -/
structure IsSequence (rows : List LineRow) : Prop where
  ended : ∃ inner last, rows = inner ++ [last] ∧ last.endSequence = true ∧
    ∀ held ∈ inner, held.endSequence = false
  rising : rows.Pairwise fun a b => a.address ≤ b.address

def Apart (first second : List LineRow) : Prop :=
  ∀ target, ¬(Spans first target ∧ Spans second target)

theorem Apart.symm {first second : List LineRow} (apart : Apart first second) : Apart second first :=
  fun target both => apart target both.symm

theorem apart_of_le {first second : List LineRow}
    (behind : ∀ last ∈ first.getLast?, ∀ start ∈ second.head?, last.address ≤ start.address) :
    Apart first second := by
  intro target ⟨⟨_, last, _, foot, _, below⟩, start, _, head, _, reached, _⟩
  have meets := behind last foot start head
  exact UInt64.not_lt.2 reached (UInt64.lt_of_lt_of_le below meets)

variable {pieces : List (List LineRow)}

theorem whole_of_shape (shape : ∀ piece ∈ pieces, IsSequence piece) :
    ∀ piece ∈ pieces, Whole id piece :=
  fun piece member => (shape piece member).ended

theorem findRow_ofRows (shape : ∀ piece ∈ pieces, IsSequence piece) (files : List String)
    (firstFile target : UInt64) :
    (ofRows pieces.flatten files firstFile).findRow target =
      (bracket? id target (inOrder id pieces).flatten).map Prod.fst := by
  have rows : (ofRows pieces.flatten files firstFile).rows =
      ((inOrder id pieces).flatten).map id := by
    have arranged := map_arranged id pieces.flatten
    rw [List.map_id pieces.flatten] at arranged
    rw [ofRows, ← arranged, LineTable.arranged, cut_flatten (whole_of_shape shape)]
  exact findRow_map id rows target

theorem findRow_of_spans (shape : ∀ piece ∈ pieces, IsSequence piece) (apart : pieces.Pairwise Apart)
    (files : List String) (firstFile : UInt64) {target : UInt64} {piece : List LineRow}
    (member : piece ∈ pieces) (spans : Spans piece target) :
    ∃ row, lastUpTo? target piece = some row ∧
      (ofRows pieces.flatten files firstFile).findRow target = some row := by
  have order := inOrder_perm id pieces
  obtain ⟨front, back, split⟩ := List.append_of_mem (order.mem_iff.2 member)
  have spans' : Spans (piece.map id) target := by rwa [List.map_id]
  have separate := (order.pairwise_iff fun {_ _} => Apart.symm).2 apart
  rw [split] at separate
  have sequence (other : List LineRow) (present : other ∈ front) : IsSequence other :=
    shape other (order.mem_iff.1 (by rw [split]; exact List.mem_append_left _ present))
  have passed := passed_of_apart split (fun other present => (sequence other present).rising)
    (fun other present address both =>
      (List.pairwise_append.1 separate).2.2 other present piece List.mem_cons_self address
        (by simpa only [List.map_id] using both)) spans'
  obtain ⟨lower, upper, found, _, answer⟩ := bracket?_of_spans front.flatten back.flatten
    (fun element inside => UInt64.le_trans (passed element inside) (firstOf_reached spans'))
    (shape piece member).ended (shape piece member).rising spans'
  refine ⟨lower, by simpa only [List.map_id, id_eq] using answer, ?_⟩
  rw [findRow_ofRows shape, split, List.flatten_append, List.flatten_cons, found]
  rfl

theorem findRow_of_not_spans (shape : ∀ piece ∈ pieces, IsSequence piece) (files : List String)
    (firstFile : UInt64) {target : UInt64} (outside : ∀ piece ∈ pieces, ¬Spans piece target) :
    (ofRows pieces.flatten files firstFile).findRow target = none := by
  rw [findRow_ofRows shape, Option.map_eq_none_iff, Option.eq_none_iff_forall_ne_some]
  intro ⟨lower, upper⟩ found
  have brackets := bracket?_eq_some_iff.1 found
  obtain ⟨before, after, split, _⟩ := brackets.neighbours
  have order := inOrder_perm id pieces
  have whole (piece : List LineRow) (member : piece ∈ inOrder id pieces) : Whole id piece :=
    (shape piece (order.mem_iff.1 member)).ended
  obtain ⟨piece, member, below, above⟩ := neighbours_in_piece whole split brackets.continues
  have sequence := shape piece (order.mem_iff.1 member)
  have reached : firstOf id piece ≤ target :=
    UInt64.le_trans (firstOf_le below sequence.rising) brackets.reached
  have spans : Spans (piece.map id) target :=
    spans_of_mem above sequence.rising reached brackets.below
  rw [List.map_id] at spans
  exact outside piece (order.mem_iff.1 member) spans

/-- The answer to an address is told by the sequences alone, in whatever order they come. -/
theorem findRow_of_sequences {sections : Dwarf.Sections} {unit : Dwarf.CompilationUnit}
    (delivers : Delivers sections unit pieces.flatten)
    (shape : ∀ piece ∈ pieces, IsSequence piece) (apart : pieces.Pairwise Apart) :
    ∃ table, read? sections unit = .ok (some table) ∧
      (∀ piece ∈ pieces, ∀ target, Spans piece target →
        ∃ row, lastUpTo? target piece = some row ∧ table.findRow target = some row) ∧
      (∀ target, (∀ piece ∈ pieces, ¬Spans piece target) → table.findRow target = none) ∧
      ∀ otherSections otherUnit reordered, List.Perm reordered pieces →
        Delivers otherSections otherUnit reordered.flatten →
          ∃ other, read? otherSections otherUnit = .ok (some other) ∧
            ∀ target, other.findRow target = table.findRow target := by
  obtain ⟨files, firstFile, table⟩ := read?_of_delivers delivers
  refine ⟨_, table, fun piece member target spans => findRow_of_spans shape apart files firstFile member spans,
    fun target outside => findRow_of_not_spans shape files firstFile outside, ?_⟩
  intro otherSections otherUnit reordered order delivered
  obtain ⟨otherFiles, otherFirst, other⟩ := read?_of_delivers delivered
  refine ⟨_, other, fun target => ?_⟩
  have shape' : ∀ piece ∈ reordered, IsSequence piece :=
    fun piece member => shape piece (order.mem_iff.1 member)
  have apart' := (order.pairwise_iff fun {_ _} => Apart.symm).2 apart
  by_cases inside : ∃ piece ∈ pieces, Spans piece target
  · obtain ⟨piece, member, spans⟩ := inside
    obtain ⟨row, last, answer⟩ := findRow_of_spans shape apart files firstFile member spans
    obtain ⟨row', last', answer'⟩ :=
      findRow_of_spans shape' apart' otherFiles otherFirst (order.mem_iff.2 member) spans
    rw [answer, answer', ← last, ← last']
  · have outside (piece : List LineRow) (member : piece ∈ pieces) : ¬Spans piece target :=
      fun spans => inside ⟨piece, member, spans⟩
    rw [findRow_of_not_spans shape files firstFile outside,
      findRow_of_not_spans shape' otherFiles otherFirst
        fun piece member => outside piece (order.mem_iff.1 member)]

def meeting : Dwarf.CompilationUnit where
  header := ⟨0, ⟨.dwarf32, 4, 8⟩, 0, 11, []⟩
  abbreviations := []
  bases := ⟨0, 0, 0⟩
  lowPc := 0
  compDir := none
  lineHeader := some {
    encoding := ⟨.dwarf32, 4, 8⟩
    minimumInstructionLength := 1
    maximumOperations := 1
    lineBase := -5
    lineRange := 14
    opcodeBase := 13
    operandCounts := [0, 1, 1, 1, 1, 0, 0, 0, 1, 0, 0, 1]
    directories := []
    files := [⟨.text [0x61], 0⟩]
    program := [
      0, 9, 2, 0, 0x20, 0, 0, 0, 0, 0, 0, 1, 2, 0x10, 0, 1, 1,
      0, 9, 2, 0, 0x10, 0, 0, 0, 0, 0, 0, 3, 6, 1, 2, 0x80, 0x20, 0, 1, 1,
      0, 9, 2, 0, 0x20, 0, 0, 0, 0, 0, 0, 1, 0, 1, 1]
  }

def noSections : Dwarf.Sections := ⟨[], [], [], [], [], [], [], [], []⟩

def meetingRows : List (List LineRow) :=
  [[⟨0x2000, 1, 1, 0, false⟩, ⟨0x2010, 1, 1, 0, true⟩],
    [⟨0x1000, 1, 7, 0, false⟩, ⟨0x2000, 1, 7, 0, true⟩],
    [⟨0x2000, 1, 1, 0, false⟩, ⟨0x2000, 1, 1, 0, true⟩]]

theorem findRow_of_sequences_meeting :
    Delivers noSections meeting meetingRows.flatten ∧
      (∀ piece ∈ meetingRows, IsSequence piece) ∧ meetingRows.Pairwise Apart ∧
        ∃ table, read? noSections meeting = .ok (some table) ∧
          table.findRow 0x1fff = some ⟨0x1000, 1, 7, 0, false⟩ ∧
          table.findRow 0x2000 = some ⟨0x2000, 1, 1, 0, false⟩ ∧ table.findRow 0x2010 = none := by
  have delivers : Delivers noSections meeting meetingRows.flatten := ⟨_, ["a"], rfl, by rfl, by rfl⟩
  have shape : ∀ piece ∈ meetingRows, IsSequence piece := by
    intro piece member
    simp only [meetingRows, List.mem_cons, List.not_mem_nil, or_false] at member
    rcases member with rfl | rfl | rfl <;> exact ⟨⟨[_], _, rfl, rfl, by decide⟩, by decide⟩
  have apart : meetingRows.Pairwise Apart := by
    simp only [meetingRows, List.pairwise_cons, List.mem_cons, List.not_mem_nil, or_false]
    refine ⟨?_, ?_, by simp, .nil⟩
    · rintro other (rfl | rfl)
      · exact (apart_of_le (by simp)).symm
      · exact (apart_of_le (by simp)).symm
    · rintro other rfl
      exact apart_of_le (by simp)
  refine ⟨delivers, shape, apart, ?_⟩
  obtain ⟨table, reads, inside, outside, _⟩ := findRow_of_sequences delivers shape apart
  refine ⟨table, reads, ?_, ?_, ?_⟩
  · obtain ⟨row, last, answer⟩ := inside _ (List.mem_cons_of_mem _ List.mem_cons_self) 0x1fff
      (by decide)
    rw [answer, ← last]
    rfl
  · obtain ⟨row, last, answer⟩ := inside _ List.mem_cons_self 0x2000
      (by decide)
    rw [answer, ← last]
    rfl
  · apply outside
    decide

end Symbolizer.LineTable
