import Symbolizer.Proofs.Inline.Faults
import Symbolizer.Proofs.LineTable.FileNames
import Symbolizer.Proofs.Session.Reuse
import Symbolizer.Proofs.UnitIndex.Candidates

/-!
Which unit answers for an address, and what it answers. The first unit in the order of the index that can
tell the line of the address answers, however many others are in front of it and whatever was looked up
before. Its innermost frame stands where the governing row says, and the frames around it are those of
the whole way to the scopes or none.
-/

namespace Symbolizer

namespace NameSource

/-- The unit in a slot of the index tells the line of an address: its interval holds the address, it can
be read together with its line table, and the row that governs the address has a line. -/
structure TellsLine (source : NameSource) (address : UInt64) (slot : Nat) (unit : Dwarf.CompilationUnit)
    (lines : LineTable) (row : LineRow) : Prop where
  held : ∃ entry interval, source.index.entries[slot]? = some entry ∧ entry.range = some interval ∧
    interval.low ≤ address ∧ address < interval.high ∧
    readUnit source.sections entry.offset = .ok ⟨unit, some lines⟩
  governs : lines.findRow address = some row
  lined : row.line ≠ 0

structure FirstToTell (source : NameSource) (address : UInt64) (slot : Nat) (unit : Dwarf.CompilationUnit)
    (lines : LineTable) (row : LineRow) : Prop where
  tells : source.TellsLine address slot unit lines row
  lowest : ∀ lower < slot, ∀ unit lines row, ¬source.TellsLine address lower unit lines row

variable {source : NameSource} {address : UInt64} {slot second_slot : Nat}
  {unit second_unit : Dwarf.CompilationUnit} {lines second_lines : LineTable} {row second_row : LineRow}
  {frames : List LogicalFrame} {fault : Fault}

theorem mem_slotsFor :
    slot ∈ source.slotsFor address ↔
      ∃ entry, source.index.entries[slot]? = some entry ∧ entry.contains address = true := by
  simp only [slotsFor, List.mem_map, Prod.exists, UnitIndex.mem_candidates, exists_and_right,
    exists_eq_right]

theorem slotsFor_pairwise (source : NameSource) (address : UInt64) :
    (source.slotsFor address).Pairwise (· < ·) :=
  List.pairwise_map.2 (source.index.candidates_pairwise address)

theorem answers_iff :
    slot ∈ source.slotsFor address ∧ source.framesIn? address (source.unitIn? slot) = some frames ↔
      ∃ unit lines row, source.TellsLine address slot unit lines row ∧
        frames = source.framesAt unit lines row address := by
  rw [mem_slotsFor]
  constructor
  · rintro ⟨⟨entry, found, contains⟩, answer⟩
    obtain ⟨interval, range, reached, below⟩ := (UnitEntry.contains_iff entry address).1 contains
    simp only [framesIn?, unitIn?, found, Option.bind_eq_bind, Option.bind_some, Option.bind_eq_some_iff,
      toOption_eq_some_iff, Option.pure_def, Option.some.injEq] at answer
    obtain ⟨⟨unit, _⟩, read, lines, rfl, row, governs, _, passed, same⟩ := answer
    have lined : row.line ≠ 0 := by
      intro zero
      simp [guard, zero] at passed
    exact ⟨unit, lines, row, ⟨⟨entry, interval, found, range, reached, below, read⟩, governs, lined⟩,
      same.symm⟩
  · rintro ⟨unit, lines, row, ⟨⟨entry, interval, found, range, reached, below, read⟩, governs, lined⟩, rfl⟩
    refine ⟨⟨entry, found, (UnitEntry.contains_iff entry address).2 ⟨interval, range, reached, below⟩⟩, ?_⟩
    simp [framesIn?, unitIn?, found, read, Except.toOption, governs, guard, lined]

theorem TellsLine.unique (tells : source.TellsLine address slot unit lines row)
    (tells_too : source.TellsLine address slot second_unit second_lines second_row) :
    unit = second_unit ∧ lines = second_lines ∧ row = second_row := by
  obtain ⟨⟨entry, _, found, _, _, _, read⟩, governs, _⟩ := tells
  obtain ⟨⟨_, _, found_too, _, _, _, read_too⟩, governs_too, _⟩ := tells_too
  rw [found] at found_too
  cases found_too
  rw [read] at read_too
  cases read_too
  rw [governs] at governs_too
  cases governs_too
  exact ⟨rfl, rfl, rfl⟩

theorem FirstToTell.unique (first : source.FirstToTell address slot unit lines row)
    (second : source.FirstToTell address second_slot second_unit second_lines second_row) :
    unit = second_unit ∧ lines = second_lines ∧ row = second_row := by
  rcases Nat.lt_trichotomy slot second_slot with below | rfl | above
  · exact absurd first.tells (second.lowest slot below unit lines row)
  · exact first.tells.unique second.tells
  · exact absurd second.tells (first.lowest second_slot above second_unit second_lines second_row)

theorem lookup_found (found : source.lookup address = .found frames) :
    ∃ slot unit lines row, source.FirstToTell address slot unit lines row ∧
      frames = source.framesAt unit lines row address := by
  unfold lookup at found
  split at found
  next answer first =>
    cases found
    obtain ⟨front, slot, back, split, here, silent⟩ := List.findSome?_eq_some_iff.1 first
    have member : slot ∈ source.slotsFor address := by rw [split]; simp
    obtain ⟨unit, lines, row, tells, same⟩ := answers_iff.1 ⟨member, here⟩
    refine ⟨slot, unit, lines, row, ⟨tells, fun lower below unit lines row tells => ?_⟩, same⟩
    obtain ⟨listed, answers⟩ := answers_iff.2 ⟨unit, lines, row, tells, rfl⟩
    -- Slots are in order, so a lower one stands in front, where none answers.
    have in_front : lower ∈ front := by
      have ordered := source.slotsFor_pairwise address
      rw [split] at listed ordered
      have behind := (List.pairwise_cons.1 (List.pairwise_append.1 ordered).2.1).1
      rcases List.mem_append.1 listed with inside | rest
      · exact inside
      · rcases List.mem_cons.1 rest with same | later
        · omega
        · have above := behind lower later
          omega
    rw [silent lower in_front] at answers
    cases answers
  next => cases found

theorem lookup_found_iff :
    (∃ frames, source.lookup address = .found frames) ↔
      ∃ slot unit lines row, source.TellsLine address slot unit lines row := by
  constructor
  · rintro ⟨frames, found⟩
    obtain ⟨slot, unit, lines, row, first, _⟩ := lookup_found found
    exact ⟨slot, unit, lines, row, first.tells⟩
  · rintro ⟨slot, unit, lines, row, tells⟩
    obtain ⟨listed, answers⟩ := answers_iff.2 ⟨unit, lines, row, tells, rfl⟩
    unfold lookup
    split
    next frames _ => exact ⟨frames, rfl⟩
    next none =>
      rw [List.findSome?_eq_none_iff] at none
      rw [none slot listed] at answers
      cases answers

/-! The frames of one unit. -/

theorem expandChain_head (leaf : Option SourceLocation) (scopes : List Scope) :
    ∃ function outer, expandChain leaf scopes = ⟨leaf, function⟩ :: outer := by
  cases scopes with
  | nil => exact ⟨none, [], rfl⟩
  | cons scope outer =>
    rw [expandChain]
    split
    · exact ⟨scope.function, [], rfl⟩
    · exact ⟨scope.function, _, rfl⟩

theorem framesAt_of_resolved
    (resolved : ScopeSource.resolve { source with unit, lines } address
      ((lines.fileName? row.file).map (⟨·, row.line, row.column⟩)) = .ok frames) :
    source.framesAt unit lines row address = frames := by
  simp only [framesAt, resolved]

theorem framesAt_of_fault
    (failed : ScopeSource.resolve { source with unit, lines } address
      ((lines.fileName? row.file).map (⟨·, row.line, row.column⟩)) = .error fault) :
    source.framesAt unit lines row address =
      [⟨(lines.fileName? row.file).map (⟨·, row.line, row.column⟩), none⟩] := by
  simp only [framesAt, failed]

/-- The frames of a chain stand together, and a walk that fails leaves only the row. -/
theorem framesAt_cases (source : NameSource) (unit : Dwarf.CompilationUnit) (lines : LineTable)
    (row : LineRow) (address : UInt64) :
    ∃ innermost outer, source.framesAt unit lines row address = innermost :: outer ∧
      innermost.location = (lines.fileName? row.file).map (⟨·, row.line, row.column⟩) ∧
      (ScopeSource.WalkFails { source with unit, lines } address →
        innermost.function = none ∧ outer = []) ∧
      (¬ScopeSource.WalkFails { source with unit, lines } address →
        ScopeSource.resolve { source with unit, lines } address innermost.location =
          .ok (innermost :: outer)) := by
  let scopes : ScopeSource := { source with unit, lines }
  let leaf : Option SourceLocation := (lines.fileName? row.file).map (⟨·, row.line, row.column⟩)
  have fails_iff : (∃ fault, scopes.resolve address leaf = .error fault) ↔ scopes.WalkFails address :=
    ScopeSource.resolve_error_iff
  cases resolved : scopes.resolve address leaf with
  | error fault =>
    have alone : source.framesAt unit lines row address = [⟨leaf, none⟩] := framesAt_of_fault resolved
    have fails := fails_iff.1 ⟨fault, resolved⟩
    exact ⟨⟨leaf, none⟩, [], alone, rfl, fun _ => ⟨rfl, rfl⟩, fun holds => absurd fails holds⟩
  | ok frames =>
    have whole : source.framesAt unit lines row address = frames := framesAt_of_resolved resolved
    have holds : ¬scopes.WalkFails address := by
      intro fails
      obtain ⟨fault, wrong⟩ := fails_iff.2 fails
      rw [resolved] at wrong
      cases wrong
    obtain ⟨_, walked, _, _, _, expanded⟩ := ScopeSource.chain_of_resolve resolved
    obtain ⟨function, outer, chain⟩ := expandChain_head leaf walked
    have same : frames = ⟨leaf, function⟩ :: outer := expanded.trans chain
    subst same
    exact ⟨⟨leaf, function⟩, outer, whole, rfl, fun fails => absurd fails holds, fun _ => resolved⟩

end NameSource

namespace Session

def after (session : Session) (earlier : List UInt64) : Session :=
  earlier.foldl (fun session address => (session.serve address).2) session

theorem after_coherent {session : Session} (coherent : session.Coherent) (earlier : List UInt64) :
    (session.after earlier).Coherent ∧
      (session.after earlier).toNameSource = session.toNameSource := by
  induction earlier generalizing session with
  | nil => exact ⟨coherent, rfl⟩
  | cons address earlier ih =>
    obtain ⟨kept, source⟩ := ih (serve_coherent coherent address)
    exact ⟨kept, source.trans (serve_source coherent address)⟩

/-- In every session, whatever has been looked up in it before: an address is found exactly when some
unit tells its line, and then the unit in the lowest slot that does answers for it. The innermost frame
has the place of the governing row, unless its file is outside the table. When the walk to the scopes
fails anywhere, there is no other frame and no function. -/
theorem serve_found_iff (sections : Dwarf.Sections) (naming : Naming) (earlier : List UInt64)
    (address : UInt64) :
    let source := (ofSections sections naming).toNameSource
    let served := (((ofSections sections naming).after earlier).serve address).1
    ((∃ frames, served = .found frames) ↔
      ∃ slot unit lines row, source.TellsLine address slot unit lines row) ∧
    ∀ frames, served = .found frames →
      ∃ slot unit lines row, source.FirstToTell address slot unit lines row ∧
        ∃ innermost outer, frames = innermost :: outer ∧
          (innermost.location = none ↔
            row.file < lines.firstFile ∨ lines.firstFile.toNat + lines.files.length ≤ row.file.toNat) ∧
          (∀ place ∈ innermost.location, lines.fileName? row.file = some place.file ∧
            place.line = row.line ∧ place.line ≠ 0 ∧ place.column = row.column) ∧
          (ScopeSource.WalkFails { source with unit, lines } address →
            innermost.function = none ∧ outer = []) ∧
          (¬ScopeSource.WalkFails { source with unit, lines } address →
            ScopeSource.resolve { source with unit, lines } address innermost.location =
              .ok (innermost :: outer)) := by
  intro source served
  obtain ⟨coherent, kept⟩ := after_coherent (coherent_ofSections sections naming) earlier
  have answer : served = source.lookup address := by
    show (((ofSections sections naming).after earlier).serve address).1 = source.lookup address
    rw [serve_lookup coherent address, kept]
  rw [answer]
  refine ⟨NameSource.lookup_found_iff, fun frames found => ?_⟩
  obtain ⟨slot, unit, lines, row, first, same⟩ := NameSource.lookup_found found
  obtain ⟨innermost, outer, split, location, fails, holds⟩ :=
    source.framesAt_cases unit lines row address
  refine ⟨slot, unit, lines, row, first, innermost, outer, same.trans split, ?_, ?_, fails, holds⟩
  · rw [location, Option.map_eq_none_iff, LineTable.fileName?_eq_none_iff]
  · intro place member
    rw [location] at member
    obtain ⟨file, named, rfl⟩ := Option.map_eq_some_iff.1 member
    exact ⟨named, rfl, first.tells.lined, rfl⟩

/-- Two units over the same addresses. Only the second has lines. -/
def overlaid : Dwarf.Sections where
  info := [0x14, 0, 0, 0, 4, 0, 0, 0, 0, 0, 8,
    1, 0, 0x10, 0, 0, 0, 0, 0, 0, 0, 1, 0, 0,
    0x25, 0, 0, 0, 4, 0, 0, 0, 0, 0, 8,
    2, 0, 0, 0, 0, 0, 0x10, 0, 0, 0, 0, 0, 0, 0, 1, 0, 0,
    3, 0x66, 0, 0, 0x10, 0, 0, 0, 0, 0, 0, 0x80, 0]
  abbreviations := [1, 0x11, 0, 0x11, 1, 0x12, 6, 0, 0,
    2, 0x11, 1, 0x10, 0x17, 0x11, 1, 0x12, 6, 0, 0,
    3, 0x2e, 0, 3, 8, 0x11, 1, 0x12, 0xb, 0, 0, 0]
  line := [0x33, 0, 0, 0, 4, 0, 0x1b, 0, 0, 0, 1, 1, 1, 0xfb, 0xe, 0xd, 0, 1, 1, 1, 1, 0, 0, 0, 1, 0, 0, 1,
    0, 0x61, 0x2e, 0x63, 0, 0, 0, 0, 0,
    0, 9, 2, 0, 0x10, 0, 0, 0, 0, 0, 0, 1, 2, 0x80, 2, 0, 1, 1]
  str := []
  lineStr := []
  strOffsets := []
  addr := []
  ranges := []
  rnglists := []

def rawNames : Naming := ⟨false, ⟨fun _ => none, fun _ => none⟩⟩

theorem overlaid_entries :
    (ofSections overlaid rawNames).index.entries =
      [⟨0, some ⟨0x1000, 0x1100⟩⟩, ⟨24, some ⟨0x1000, 0x1100⟩⟩] := by
  cbv

theorem overlaid_bare : (readUnit overlaid 0).map UnitLines.lines = .ok none := by
  cbv

theorem overlaid_slot {slot : Nat} {unit : Dwarf.CompilationUnit} {lines : LineTable} {row : LineRow}
    (first : (ofSections overlaid rawNames).toNameSource.FirstToTell 0x1028 slot unit lines row) :
    slot = 1 := by
  obtain ⟨entry, _, listed, _, _, _, read⟩ := first.tells.held
  rw [overlaid_entries] at listed
  rcases slot with _ | _ | slot
  · cases listed
    have read : readUnit overlaid 0 = .ok ⟨unit, some lines⟩ := read
    have bare := overlaid_bare
    rw [read] at bare
    cases bare
  · rfl
  · cases listed

/-- The unit in front is passed over, also when it has been read for an earlier lookup. -/
theorem serve_found_iff_overlaid :
    let source := (ofSections overlaid rawNames).toNameSource
    (((ofSections overlaid rawNames).after [0x2000, 0x1028]).serve 0x1028).1 =
        .found [⟨some ⟨"a.c", 1, 0⟩, some ⟨"f", none, .c⟩⟩] ∧
      ∃ unit lines row, source.FirstToTell 0x1028 1 unit lines row ∧
        lines.fileName? row.file = some "a.c" ∧ row.line = 1 ∧ row.column = 0 ∧
        ¬ScopeSource.WalkFails { source with unit, lines } 0x1028 := by
  intro source
  have found : (((ofSections overlaid rawNames).after [0x2000, 0x1028]).serve 0x1028).1 =
      .found [⟨some ⟨"a.c", 1, 0⟩, some ⟨"f", none, .c⟩⟩] := by cbv
  obtain ⟨slot, unit, lines, row, first, innermost, outer, split, _, placed, fails, _⟩ :=
    (serve_found_iff overlaid rawNames [0x2000, 0x1028] 0x1028).2 _ found
  obtain ⟨rfl, _⟩ := List.cons.inj split
  obtain ⟨named, line, _, column⟩ := placed _ rfl
  obtain rfl := overlaid_slot first
  refine ⟨found, unit, lines, row, first, named, line.symm, column.symm, fun wrong => ?_⟩
  -- A walk that fails leaves the frame without a name.
  cases (fails wrong).1

end Session

end Symbolizer
