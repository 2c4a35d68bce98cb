import Symbolizer.Proofs.Dwarf.Reading

/-!
Unit headers, one behind the other. A header is read from its own bytes alone and its unit ends where the
next one starts, so the units in front of a place are the same whatever stands behind it, and no two of
them share an offset.
-/

namespace Symbolizer.Dwarf.Read

variable {α β : Type}

/-- Whatever stands behind the bytes that a reader has passed plays no part. -/
def Local (read : Read α) : Prop :=
  ∀ cursor value next, read.run cursor = .ok (value, next) →
    ∃ passed, cursor.rest = passed ++ next.rest ∧
      next.position = cursor.position + passed.length ∧
      ∀ behind, read.run ⟨cursor.position, passed ++ behind⟩ = .ok (value, ⟨next.position, behind⟩)

variable {read : Read α} {andThen : α → Read β}

theorem local_pure (value : β) : Local (pure value) := by
  intro cursor given next ran
  obtain ⟨rfl, rfl⟩ := run_pure.1 ran
  exact ⟨[], rfl, rfl, fun behind => rfl⟩

theorem local_throw (fault : Fault) : Local (throw fault : Read β) := by
  intro cursor value next ran
  cases ran

theorem local_bind (first : Local read) (second : ∀ value, Local (andThen value)) :
    Local (read >>= andThen) := by
  intro cursor value next ran
  obtain ⟨held, place, before, after⟩ := run_bind.1 ran
  obtain ⟨front, split, moved, again⟩ := first _ _ _ before
  obtain ⟨back, split_too, moved_too, again_too⟩ := second held _ _ _ after
  refine ⟨front ++ back, ?_, ?_, fun behind => run_bind.2 ⟨held, ⟨place.position, back ++ behind⟩, ?_, ?_⟩⟩
  · rw [split, split_too, List.append_assoc]
  · rw [moved_too, moved, List.length_append, Nat.add_assoc]
  · rw [List.append_assoc]
    exact again _
  · exact again_too behind

theorem local_ite {condition : Prop} [Decidable condition] {yes no : Read β} (first : Local yes)
    (second : Local no) : Local (if condition then yes else no) := by
  split
  · exact first
  · exact second

theorem local_unless {condition : Prop} [Decidable condition] {fault : Fault}
    {go_on : Unit → Read β} (rest : Local (go_on ())) :
    Local (if condition then do let held ← throw fault; go_on held else go_on ()) :=
  local_ite (local_bind (local_throw fault) fun _ => rest) rest

theorem local_position {andThen : Cursor → Read β} (rest : ∀ cursor, Local (andThen cursor))
    (same : ∀ cursor bytes, andThen ⟨cursor.position, bytes⟩ = andThen cursor) :
    Local (get >>= andThen) := by
  intro cursor value next ran
  obtain ⟨passed, split, moved, again⟩ := rest cursor cursor value next ran
  refine ⟨passed, split, moved, fun behind => ?_⟩
  have asked : (get >>= andThen).run ⟨cursor.position, passed ++ behind⟩ =
      (andThen cursor).run ⟨cursor.position, passed ++ behind⟩ := by
    rw [← same cursor (passed ++ behind)]
    rfl
  rw [asked]
  exact again behind

theorem run_lift {result : Except Fault α} {cursor next : Cursor} {value : α} :
    (liftM result : Read α).run cursor = .ok (value, next) ↔ result = .ok value ∧ cursor = next := by
  cases result with
  | error fault => exact ⟨nofun, nofun⟩
  | ok held =>
    constructor
    · intro ran
      cases ran
      exact ⟨rfl, rfl⟩
    · rintro ⟨same, rfl⟩
      cases same
      rfl

theorem local_lift (result : Except Fault α) : Local (liftM result : Read α) := by
  intro cursor value next ran
  obtain ⟨there, rfl⟩ := run_lift.1 ran
  exact ⟨[], rfl, rfl, fun behind => run_lift.2 ⟨there, rfl⟩⟩

theorem run_take {count : Nat} {cursor next : Cursor} {bytes : Bytes}
    (ran : (take count).run cursor = .ok (bytes, next)) :
    cursor.rest = bytes ++ next.rest ∧ bytes.length = count ∧ next.position = cursor.position + count := by
  simp only [StateT.run, take] at ran
  split at ran
  next enough =>
    cases ran
    exact ⟨(List.take_append_drop _ _).symm, enough, rfl⟩
  next => cases ran

theorem local_take (count : Nat) : Local (take count) := by
  intro cursor bytes next ran
  obtain ⟨split, enough, moved⟩ := run_take ran
  refine ⟨bytes, split, by rw [moved, enough], fun behind => ?_⟩
  have front : (bytes ++ behind).take count = bytes := List.take_left' enough
  have back : (bytes ++ behind).drop count = behind := List.drop_left' enough
  simp only [StateT.run, take, front, back, enough, ↓reduceIte, moved]

theorem local_byte : Local byte := by
  intro cursor value next ran
  simp only [StateT.run, byte] at ran
  split at ran
  next => cases ran
  next first rest found =>
    cases ran
    exact ⟨[value], found, rfl, fun behind => rfl⟩

theorem local_number (width : Nat) : Local (number width) :=
  local_bind (local_take width) fun _ => local_pure _

theorem local_skip (count : Nat) : Local (skip count) :=
  local_bind (local_take count) fun _ => local_pure ()

theorem run_number {width : Nat} {cursor next : Cursor} {value : Nat}
    (ran : (number width).run cursor = .ok (value, next)) : next.position = cursor.position + width := by
  obtain ⟨bytes, place, taken, ran⟩ := run_bind.1 ran
  obtain ⟨_, rfl⟩ := run_pure.1 ran
  exact (run_take taken).2.2

theorem local_initialLength : Local initialLength := by
  refine local_bind (local_number 4) fun first => local_ite (local_pure _) (local_ite ?_ (local_throw _))
  exact local_bind (local_number 8) fun _ => local_pure _

theorem local_addressSize : Local addressSize :=
  local_bind local_byte fun _ => local_ite (local_pure _) (local_throw _)

end Symbolizer.Dwarf.Read

namespace Symbolizer.Dwarf.UnitHeader

open Read

def finish (header : UnitHeader) : Nat :=
  header.offset + header.headerSize + header.entries.length

def fields (format : Format) : Read (Encoding × Nat) := do
  let version ← number 2
  if 2 ≤ version ∧ version ≤ 4 then
    let abbrevOffset ← Read.offset format
    let size ← addressSize
    return (⟨format, version, size⟩, abbrevOffset)
  if version ≠ 5 then throw .unknownVersion
  let unitType := (← byte).toNat
  let size ← addressSize
  let abbrevOffset ← Read.offset format
  extraFields format unitType
  return (⟨format, version, size⟩, abbrevOffset)

theorem local_extraFields (format : Format) (unitType : Nat) : Local (extraFields format unitType) := by
  unfold extraFields
  split
  all_goals first
    | exact local_pure ()
    | exact local_throw _
    | exact local_skip 8
    | exact local_bind (local_skip 8) fun _ => local_skip _

theorem local_fields (format : Format) : Local (fields format) := by
  refine local_bind (local_number 2) fun version => local_ite ?_ (local_unless ?_)
  · refine local_bind (local_number _) fun abbrevOffset => ?_
    exact local_bind local_addressSize fun size => local_pure _
  · refine local_bind local_byte fun unitType => local_bind local_addressSize fun size => ?_
    refine local_bind (local_number _) fun abbrevOffset => ?_
    exact local_bind (local_extraFields format _) fun _ => local_pure _

theorem read_eq : UnitHeader.read = (do
    let start := (← get).position
    let (length, format) ← initialLength
    let bodyStart := (← get).position
    let body ← take length
    let ((encoding, abbrevOffset), behind) ← (fields format).run ⟨bodyStart, body⟩
    return ⟨start, encoding, abbrevOffset, behind.position - start, behind.rest⟩) := rfl

theorem local_read : Local UnitHeader.read := by
  rw [read_eq]
  refine local_position (fun start => ?_) fun _ _ => rfl
  refine local_bind local_initialLength fun (length, format) => ?_
  refine local_position (fun bodyStart => ?_) fun _ _ => rfl
  refine local_bind (local_take length) fun body => ?_
  exact local_bind (local_lift ((fields format).run ⟨bodyStart.position, body⟩)) fun _ => local_pure _

variable {cursor next : Cursor} {header other : UnitHeader} {info : Bytes}

theorem moves_of_initialLength {length : Nat × Format}
    (ran : initialLength.run cursor = .ok (length, next)) : cursor.position < next.position := by
  obtain ⟨first, place, taken, ran⟩ := run_bind.1 ran
  have moved := run_number taken
  have rest : Local (do
      if first < 0xfffffff0 then return (first, Format.dwarf32)
      if first = 0xffffffff then return (← number 8, Format.dwarf64)
      throw .unknownReservedLength) :=
    local_ite (local_pure _) (local_ite (local_bind (local_number 8) fun _ => local_pure _) (local_throw _))
  obtain ⟨_, _, moved_too, _⟩ := rest _ _ _ ran
  omega

theorem placed_of_read (ran : UnitHeader.read.run cursor = .ok (header, next)) :
    header.offset = cursor.position ∧ header.finish = next.position ∧ cursor.position < next.position := by
  rw [read_eq] at ran
  obtain ⟨start, place, asked, ran⟩ := run_bind.1 ran
  cases asked
  obtain ⟨⟨length, format⟩, measured, found, ran⟩ := run_bind.1 ran
  obtain ⟨_, _, asked, ran⟩ := run_bind.1 ran
  cases asked
  obtain ⟨body, behind, taken, ran⟩ := run_bind.1 ran
  obtain ⟨⟨⟨encoding, abbrevOffset⟩, left⟩, place, lifted, ran⟩ := run_bind.1 ran
  obtain ⟨same, rfl⟩ := run_pure.1 ran
  obtain ⟨spelled, rfl⟩ := run_lift.1 lifted
  have moved := moves_of_initialLength found
  obtain ⟨_, whole, finished⟩ := run_take taken
  obtain ⟨spent, split, moved_in, _⟩ := local_fields format _ _ _ spelled
  dsimp only at split moved_in
  have sizes : body.length = spent.length + left.rest.length := by rw [split, List.length_append]
  rw [← same]
  refine ⟨rfl, ?_, by omega⟩
  simp only [finish]
  omega

/-- Bytes from a position on that are units one behind the other, with their headers. -/
inductive Spell : Nat → Bytes → List UnitHeader → Prop where
  | done (position : Nat) : Spell position [] []
  | unit {position : Nat} {bytes rest : Bytes} {header : UnitHeader} {headers : List UnitHeader}
      (read : ∀ behind, UnitHeader.read.run ⟨position, bytes ++ behind⟩ =
        .ok (header, ⟨position + bytes.length, behind⟩))
      (spell : Spell (position + bytes.length) rest headers) :
      Spell position (bytes ++ rest) (header :: headers)

variable {position : Nat} {bytes front behind : Bytes} {headers : List UnitHeader}

theorem placed_of_read_front
    (read : UnitHeader.read.run ⟨position, bytes⟩ = .ok (header, ⟨position + front.length, behind⟩)) :
    header.offset = position ∧ header.finish = position + front.length ∧ 0 < front.length := by
  obtain ⟨placed, ends, moved⟩ := placed_of_read read
  dsimp only at placed ends moved
  exact ⟨placed, ends, by omega⟩

theorem spell_allFrom (fuel : Nat) (cursor : Cursor) :
    ∃ front behind, cursor.rest = front ++ behind ∧ Spell cursor.position front (allFrom fuel cursor) := by
  induction fuel generalizing cursor with
  | zero => exact ⟨[], cursor.rest, rfl, .done _⟩
  | succ fuel ih =>
    unfold allFrom
    split
    next => exact ⟨[], cursor.rest, rfl, .done _⟩
    next =>
      split
      next header next ran =>
        obtain ⟨passed, split, moved, again⟩ := local_read _ _ _ ran
        obtain ⟨front, behind, rest, spell⟩ := ih next
        rw [moved] at spell again
        exact ⟨passed ++ front, behind, by rw [split, rest, List.append_assoc], .unit again spell⟩
      next => exact ⟨[], cursor.rest, rfl, .done _⟩

/-- Bytes that are units are read as their headers, whatever stands behind them. -/
theorem Spell.allFrom_eq (spell : Spell position front headers) (behind : Bytes) (fuel : Nat)
    (enough : front.length + behind.length < fuel) :
    ∃ left, behind.length < left ∧ allFrom fuel ⟨position, front ++ behind⟩ =
      headers ++ allFrom left ⟨position + front.length, behind⟩ := by
  induction spell generalizing fuel with
  | done position => exact ⟨fuel, by simpa using enough, by simp⟩
  | @unit position bytes rest header headers read spell ih =>
    obtain ⟨fuel, rfl⟩ := Nat.exists_eq_add_one_of_ne_zero (Nat.ne_of_gt (Nat.zero_lt_of_lt enough))
    obtain ⟨_, _, some_byte⟩ := placed_of_read_front (read [])
    rw [List.length_append] at enough
    obtain ⟨left, room, rest_read⟩ := ih fuel (by omega)
    have some_left : ((bytes ++ (rest ++ behind)).isEmpty) = false := by
      rw [List.isEmpty_eq_false_iff, ← List.length_pos_iff, List.length_append]
      omega
    refine ⟨left, room, ?_⟩
    rw [allFrom, List.append_assoc]
    simp only [some_left, Bool.false_eq_true, ↓reduceIte, read, rest_read, List.cons_append,
      List.length_append, Nat.add_assoc]

theorem Spell.within (spell : Spell position front headers) (member : header ∈ headers) :
    position ≤ header.offset ∧ header.offset < header.finish ∧
      header.finish ≤ position + front.length := by
  induction spell with
  | done => cases member
  | @unit position bytes rest first headers read spell ih =>
    obtain ⟨placed, ends, some_byte⟩ := placed_of_read_front (read [])
    rw [List.length_append]
    rcases List.mem_cons.1 member with rfl | later
    · omega
    · have inside := ih later
      omega

theorem Spell.apart (spell : Spell position front headers) :
    headers.Pairwise fun header other => header.finish ≤ other.offset := by
  induction spell with
  | done => exact .nil
  | @unit position bytes rest first headers read spell ih =>
    obtain ⟨_, ends, _⟩ := placed_of_read_front (read [])
    refine .cons (fun other member => ?_) ih
    have inside := spell.within member
    omega

theorem Spell.reached {offset : Nat} (spell : Spell position front headers) (from_start : position ≤ offset)
    (before : offset < position + front.length) :
    ∃ header ∈ headers, header.offset ≤ offset ∧ offset < header.finish := by
  induction spell with
  | done position =>
    rw [List.length_nil] at before
    omega
  | @unit position bytes rest first headers read spell ih =>
    obtain ⟨placed, ends, _⟩ := placed_of_read_front (read [])
    by_cases here : offset < position + bytes.length
    · exact ⟨first, List.mem_cons_self, by omega, by omega⟩
    · rw [List.length_append] at before
      obtain ⟨header, member, within⟩ := ih (by omega) (by omega)
      exact ⟨header, List.mem_cons_of_mem _ member, within⟩

theorem Spell.atOffset (spell : Spell position front headers) (member : header ∈ headers)
    (before : Bytes) (starts : before.length = position) (behind : Bytes) :
    UnitHeader.atOffset (before ++ (front ++ behind)) header.offset = .ok header := by
  induction spell generalizing before with
  | done => cases member
  | @unit position bytes rest first headers read spell ih =>
    rcases List.mem_cons.1 member with rfl | later
    · obtain ⟨placed, _, _⟩ := placed_of_read_front (read [])
      have cut : (before ++ (bytes ++ rest ++ behind)).drop position = bytes ++ (rest ++ behind) := by
        rw [List.drop_left' starts, List.append_assoc]
      have reached : position ≤ (before ++ (bytes ++ rest ++ behind)).length := by
        rw [List.length_append]
        omega
      rw [UnitHeader.atOffset, Read.runAt, placed, Cursor.at, Bytes.from?, if_pos reached, cut]
      simp only [bind, Except.bind, read, pure, Except.pure]
    · have inside := ih later (before ++ bytes) (by rw [List.length_append, starts])
      rwa [List.append_assoc, ← List.append_assoc bytes] at inside

theorem Spell.take (spell : Spell position front headers) (count : Nat) :
    ∃ bytes, bytes <+: front ∧ Spell position bytes (headers.take count) ∧
      ((headers.take count).getLast?.map finish).getD position = position + bytes.length := by
  induction spell generalizing count with
  | done position => exact ⟨[], List.nil_prefix, by simpa using .done position, by simp⟩
  | @unit position bytes rest header headers read spell ih =>
    cases count with
    | zero => exact ⟨[], List.nil_prefix, .done position, by simp⟩
    | succ count =>
      obtain ⟨_, ends, _⟩ := placed_of_read_front (read [])
      obtain ⟨kept, front, spelled, last⟩ := ih count
      refine ⟨bytes ++ kept, (List.prefix_append_right_inj bytes).2 front, .unit read spelled, ?_⟩
      rw [List.take_succ_cons, List.getLast?_cons, List.length_append, ← Nat.add_assoc, ← last]
      cases (headers.take count).getLast? with
      | none => simpa using ends
      | some final => rfl

/-! All units of a section. -/

def placeBehind (info : Bytes) (count : Nat) : Nat :=
  (((all info).take count).getLast?.map finish).getD 0

theorem spell_all (info : Bytes) : ∃ front behind, info = front ++ behind ∧ Spell 0 front (all info) :=
  spell_allFrom (info.length + 1) ⟨0, info⟩

theorem atOffset_of_mem_all (member : header ∈ all info) :
    UnitHeader.atOffset info header.offset = .ok header := by
  obtain ⟨front, behind, split, spell⟩ := spell_all info
  have found := spell.atOffset member [] rfl behind
  rwa [List.nil_append, ← split] at found

theorem all_apart (info : Bytes) :
    (all info).Pairwise fun header other => header.finish ≤ other.offset := by
  obtain ⟨_, _, _, spell⟩ := spell_all info
  exact spell.apart

theorem offset_lt_finish (member : header ∈ all info) : header.offset < header.finish := by
  obtain ⟨_, _, _, spell⟩ := spell_all info
  exact (spell.within member).2.1

/-- The units of a section reach from its start to the end of the last one. -/
theorem exists_mem_all_iff (info : Bytes) (offset : Nat) :
    (∃ header ∈ all info, header.offset ≤ offset ∧ offset < header.finish) ↔
      offset < placeBehind info (all info).length := by
  obtain ⟨_, _, _, spell⟩ := spell_all info
  obtain ⟨bytes, _, spelled, last⟩ := spell.take (all info).length
  rw [List.take_length] at spelled
  have finish : placeBehind info (all info).length = 0 + bytes.length := last
  rw [finish]
  constructor
  · rintro ⟨header, member, _, below⟩
    have inside := spelled.within member
    omega
  · exact spelled.reached (Nat.zero_le _)

theorem eq_of_within {offset : Nat} (member : header ∈ all info) (member_too : other ∈ all info)
    (within : header.offset ≤ offset ∧ offset < header.finish)
    (within_too : other.offset ≤ offset ∧ offset < other.finish) : header = other := by
  let Beside (one two : UnitHeader) : Prop := one.finish ≤ two.offset ∨ two.finish ≤ one.offset
  have : Std.Symm Beside := ⟨fun _ _ => Or.symm⟩
  have beside : (all info).Pairwise Beside := (all_apart info).imp .inl
  by_contra different
  have apart := beside.forall member member_too different
  omega

/-- The first units stay when the bytes behind them are replaced, and whatever units follow start behind
them. -/
theorem all_replaced (info : Bytes) (count : Nat) (tail : Bytes) :
    ∃ others, all (info.take (placeBehind info count) ++ tail) = (all info).take count ++ others ∧
      (∀ header ∈ (all info).take count, header.finish ≤ placeBehind info count) ∧
      ∀ header ∈ others, placeBehind info count ≤ header.offset := by
  obtain ⟨front, behind, split, spell⟩ := spell_all info
  obtain ⟨kept, ⟨left, rest⟩, spelled, last⟩ := spell.take count
  have place : placeBehind info count = kept.length := by
    rw [placeBehind, last, Nat.zero_add]
  have cut : info.take (placeBehind info count) = kept := by
    rw [place, split, ← rest, List.append_assoc, List.take_left]
  obtain ⟨fuel, _, whole⟩ := spelled.allFrom_eq tail ((kept ++ tail).length + 1) (by simp)
  obtain ⟨more, _, _, spell_more⟩ := spell_allFrom fuel ⟨0 + kept.length, tail⟩
  refine ⟨allFrom fuel ⟨0 + kept.length, tail⟩, ?_, fun header member => ?_, fun header member => ?_⟩
  · rw [cut]
    exact whole
  · have inside := spelled.within member
    omega
  · have inside := spell_more.within member
    dsimp only at inside
    omega

end Symbolizer.Dwarf.UnitHeader
