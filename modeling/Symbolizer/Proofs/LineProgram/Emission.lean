import Symbolizer.Proofs.Dwarf.Reading

/-!
The rows of a line program with the sequences they are emitted in. Sequences are counted by the
instructions that end them, whether or not the row of such an instruction is delivered. Inside one
sequence addresses never fall, and nothing is delivered behind a row that ends it.
-/

namespace Symbolizer.Dwarf

/-- The delivered rows from a state on, each with the number of its sequence; `number` sequences have
been ended so far. -/
def runSequences (header : LineHeader) :
    Nat → Nat → LineRegisters → Cursor → Except Fault (List (Nat × LineRegisters))
  | 0, _, _, _ => .ok []
  | fuel + 1, number, registers, cursor => do
    if cursor.rest.isEmpty then return []
    let (instruction, next) ← (LineInstruction.read header).run cursor
    let (registers, delivers) ← registers.execute header instruction
    if delivers then
      let ended := if registers.endSequence then number + 1 else number
      let rows ← runSequences header fuel ended registers.afterRow next
      return if registers.silenced then rows else (number, registers) :: rows
    runSequences header fuel number registers next

def LineHeader.sequences (header : LineHeader) : Except Fault (List (Nat × LineRegisters)) :=
  runSequences header (header.program.length + 1) 0 LineRegisters.initial ⟨0, header.program⟩

theorem map_of_notes {σ α : Type} {header : LineHeader} {view : α → LineRegisters}
    {run : Nat → σ → LineRegisters → Cursor → Except Fault (List α)}
    (quiet delivered : σ → LineInstruction → LineRegisters → σ)
    (note : σ → LineInstruction → LineRegisters → α)
    (seen : ∀ notes instruction registers, view (note notes instruction registers) = registers)
    (ends : ∀ notes registers cursor, run 0 notes registers cursor = .ok [])
    (goes_on : ∀ fuel notes registers cursor, run (fuel + 1) notes registers cursor = do
      if cursor.rest.isEmpty then return []
      let (instruction, next) ← (LineInstruction.read header).run cursor
      let (registers, delivers) ← registers.execute header instruction
      if delivers then
        let rows ← run fuel (delivered notes instruction registers) registers.afterRow next
        return if registers.silenced then rows else note notes instruction registers :: rows
      run fuel (quiet notes instruction registers) registers next)
    (fuel : Nat) (notes : σ) (registers : LineRegisters) (cursor : Cursor) :
    (run fuel notes registers cursor).map (List.map view) = runInstructions header fuel registers cursor := by
  induction fuel generalizing notes registers cursor with
  | zero =>
    rw [ends]
    rfl
  | succ fuel ih =>
    rw [goes_on, runInstructions]
    by_cases finished : cursor.rest.isEmpty = true
    · rw [if_pos finished, if_pos finished]
      rfl
    · rw [if_neg finished, if_neg finished]
      cases (LineInstruction.read header).run cursor with
      | error fault => rfl
      | ok result =>
        obtain ⟨instruction, next⟩ := result
        simp only [bind, Except.bind]
        cases registers.execute header instruction with
        | error fault => rfl
        | ok outcome =>
          obtain ⟨registers, delivers⟩ := outcome
          cases delivers with
          | false => exact ih _ registers next
          | true =>
            have rest := ih (delivered notes instruction registers) registers.afterRow next
            simp only [↓reduceIte, ← rest]
            cases run fuel _ registers.afterRow next with
            | error fault => rfl
            | ok rows =>
              cases registers.silenced with
              | true => rfl
              | false => simp [pure, Except.pure, Except.map, seen]

theorem map_runSequences (header : LineHeader) (fuel number : Nat) (registers : LineRegisters)
    (cursor : Cursor) :
    (runSequences header fuel number registers cursor).map (List.map Prod.snd) =
      runInstructions header fuel registers cursor :=
  map_of_notes (fun number _ _ => number)
    (fun number _ registers => if registers.endSequence then number + 1 else number)
    (fun number _ registers => (number, registers)) (fun _ _ _ => rfl) (fun _ _ _ => rfl)
    (fun _ _ _ _ => rfl) fuel number registers cursor

theorem map_sequences (header : LineHeader) :
    header.sequences.map (List.map Prod.snd) = header.rows :=
  map_runSequences _ _ _ _ _

/-! One instruction. -/

def LineInstruction.Fits (header : LineHeader) (instruction : LineInstruction) : Prop :=
  ∀ address, instruction = .setAddress address → address ≤ maxAddress header.encoding.addressSize

theorem addAddress_eq_ok {size address distance sum : Nat} :
    addAddress size address distance = .ok sum ↔ sum = address + distance ∧ sum ≤ maxAddress size := by
  simp only [addAddress]
  split
  next fits =>
    rw [Except.ok.injEq]
    omega
  next beyond =>
    constructor
    · intro wrong
      cases wrong
    · intro ⟨same, fits⟩
      omega

namespace LineRegisters

variable {header : LineHeader} {registers next : LineRegisters} {instruction : LineInstruction}
  {delivers : Bool}

theorem advanceLine_address (registers : LineRegisters) (distance : Int) :
    (registers.advanceLine distance).address = registers.address := by
  cases distance <;> rfl

theorem advanceLine_endSequence (registers : LineRegisters) (distance : Int) :
    (registers.advanceLine distance).endSequence = registers.endSequence := by
  cases distance <;> rfl

structure Advances (header : LineHeader) (registers next : LineRegisters) : Prop where
  rises : registers.address ≤ next.address
  fits : next.address ≤ maxAddress header.encoding.addressSize

theorem advances_of_address (fits : registers.address ≤ maxAddress header.encoding.addressSize)
    (same : next.address = registers.address) : Advances header registers next :=
  ⟨Nat.le_of_eq same.symm, same ▸ fits⟩

theorem advanceOperations_advances {count : Nat}
    (fits : registers.address ≤ maxAddress header.encoding.addressSize)
    (ran : registers.advanceOperations header count = .ok next) :
    Advances header registers next ∧ next.endSequence = registers.endSequence := by
  unfold advanceOperations at ran
  split at ran
  next =>
    cases ran
    exact ⟨advances_of_address fits rfl, rfl⟩
  next =>
    obtain ⟨address, sum, same⟩ := bind_eq_ok.1 ran
    cases same
    obtain ⟨rfl, within⟩ := addAddress_eq_ok.1 sum
    exact ⟨⟨Nat.le_add_right _ _, within⟩, rfl⟩

/-- What one instruction does to the address; only one that delivers a row can end a sequence. -/
theorem execute_advances (fits : registers.address ≤ maxAddress header.encoding.addressSize)
    (sets : instruction.Fits header)
    (ran : registers.execute header instruction = .ok (next, delivers)) :
    Advances header registers next ∧ (delivers = false → next.endSequence = registers.endSequence) := by
  cases instruction with
  | special opcode =>
    obtain ⟨moved, advanced, same⟩ := bind_eq_ok.1 ran
    cases same
    have line := advanceLine_address registers
    obtain ⟨⟨rises, within⟩, _⟩ := advanceOperations_advances (by rwa [line]) advanced
    exact ⟨⟨by rwa [line] at rises, within⟩, nofun⟩
  | advancePc operations =>
    obtain ⟨moved, advanced, same⟩ := bind_eq_ok.1 ran
    cases same
    obtain ⟨moves, ends⟩ := advanceOperations_advances fits advanced
    exact ⟨moves, fun _ => ends⟩
  | constAddPc =>
    obtain ⟨moved, advanced, same⟩ := bind_eq_ok.1 ran
    cases same
    obtain ⟨moves, ends⟩ := advanceOperations_advances fits advanced
    exact ⟨moves, fun _ => ends⟩
  | fixedAddPc distance =>
    simp only [execute] at ran
    split at ran
    next =>
      cases ran
      exact ⟨advances_of_address fits rfl, fun _ => rfl⟩
    next =>
      obtain ⟨address, sum, same⟩ := bind_eq_ok.1 ran
      cases same
      obtain ⟨rfl, within⟩ := addAddress_eq_ok.1 sum
      exact ⟨⟨Nat.le_add_right _ _, within⟩, fun _ => rfl⟩
  | setAddress address =>
    simp only [execute] at ran
    split at ran
    next =>
      cases ran
      exact ⟨advances_of_address fits rfl, fun _ => rfl⟩
    next good =>
      cases ran
      simp only [Bool.or_eq_true, decide_eq_true_eq, not_or, Nat.not_lt] at good
      exact ⟨⟨good.1, sets address rfl⟩, fun _ => rfl⟩
  | advanceLine distance =>
    cases ran
    exact ⟨advances_of_address fits (advanceLine_address _ _), fun _ => advanceLine_endSequence _ _⟩
  | endSequence =>
    cases ran
    exact ⟨advances_of_address fits rfl, nofun⟩
  | copy | setFile | setColumn | defineFile | other =>
    cases ran
    exact ⟨advances_of_address fits rfl, fun _ => rfl⟩

end LineRegisters

/-! Reading instructions. -/

namespace LineInstruction

open Read

/-- What reading guarantees of an instruction: addresses of the width, and files only before version 5, with
their paths spelled out. -/
structure Sound (header : LineHeader) (instruction : LineInstruction) : Prop where
  fits : instruction.Fits header
  spelled : ∀ entry, instruction = .defineFile entry →
    header.encoding.version ≤ 4 ∧ ∃ text, entry.path = .text text

theorem sound_of_ne {header : LineHeader} {instruction : LineInstruction}
    (no_address : ∀ address, instruction ≠ .setAddress address)
    (no_file : ∀ entry, instruction ≠ .defineFile entry) : instruction.Sound header :=
  ⟨fun address same => absurd same (no_address address), fun entry same => absurd same (no_file entry)⟩

theorem ensures_oldFileFields (path : Bytes) :
    Ensures (LineHeader.oldFileFields path) fun entry => entry.path = .text path :=
  ensures_last fun _ => ensures_last fun _ => ensures_last fun _ => ensures_pure rfl

theorem ensures_extended (header : LineHeader) : Ensures (extended header) (Sound header) := by
  unfold extended
  refine ensures_last fun opcode => ?_
  split
  · exact ensures_pure (sound_of_ne nofun nofun)
  · refine ensures_map fun cursor address next ran => ⟨fun given same => ?_, nofun⟩
    cases same
    exact ensures_address _ _ _ _ ran
  · refine ensures_ite (fun old => ?_) fun _ => ensures_pure (sound_of_ne nofun nofun)
    refine ensures_last fun path => ensures_bind (ensures_oldFileFields path) fun entry spelled => ?_
    refine ensures_pure ⟨nofun, fun given same => ?_⟩
    cases same
    exact ⟨old, path, spelled⟩
  · exact ensures_last fun _ => ensures_pure (sound_of_ne nofun nofun)
  · exact ensures_pure (sound_of_ne nofun nofun)

theorem ensures_unknown (header : LineHeader) (opcode : Nat) :
    Ensures (unknown header opcode) (Sound header) := by
  unfold unknown
  split
  · exact ensures_throw _
  · exact ensures_last fun _ => ensures_pure (sound_of_ne nofun nofun)

theorem ensures_read (header : LineHeader) : Ensures (read header) (Sound header) := by
  unfold read
  refine ensures_last fun opcode => ensures_ite (fun extended => ?_) fun _ => ?_
  · refine ensures_last fun length => ensures_last fun bytes => ?_
    exact ensures_inside _ (ensures_extended header) fun _ sound => ensures_pure sound
  · refine ensures_ite (fun special => ensures_pure (sound_of_ne nofun nofun)) fun standard => ?_
    split
    all_goals first
      | exact ensures_pure (sound_of_ne nofun nofun)
      | exact ensures_map fun _ _ _ _ => sound_of_ne nofun nofun
      | exact ensures_last fun _ => ensures_pure (sound_of_ne nofun nofun)
      | exact ensures_unknown header _

end LineInstruction

/-! Whole runs. -/

def Precedes (first second : Nat × LineRegisters) : Prop :=
  first.1 < second.1 ∨
    first.1 = second.1 ∧ first.2.address ≤ second.2.address ∧ first.2.endSequence = false

/-- Rows in the order of their sequences, with rising addresses inside each of them. -/
structure Ordered (header : LineHeader) (number address : Nat) (rows : List (Nat × LineRegisters)) :
    Prop where
  pairwise : rows.Pairwise Precedes
  fits : ∀ held ∈ rows, held.2.address ≤ maxAddress header.encoding.addressSize
  later : ∀ held ∈ rows, number < held.1 ∨ number = held.1 ∧ address ≤ held.2.address

variable {header : LineHeader}

theorem Ordered.weaken {number address lower : Nat} {rows : List (Nat × LineRegisters)}
    (ordered : Ordered header number address rows) (below : lower ≤ address) :
    Ordered header number lower rows := by
  refine ⟨ordered.pairwise, ordered.fits, fun held member => ?_⟩
  rcases ordered.later held member with beyond | ⟨same, reached⟩
  · exact .inl beyond
  · exact .inr ⟨same, Nat.le_trans below reached⟩

theorem Ordered.cons {number : Nat} {registers : LineRegisters} {rows : List (Nat × LineRegisters)}
    (fits : registers.address ≤ maxAddress header.encoding.addressSize)
    (ordered : Ordered header (if registers.endSequence then number + 1 else number)
      registers.afterRow.address rows) :
    Ordered header number registers.address ((number, registers) :: rows) := by
  have behind (held : Nat × LineRegisters) (member : held ∈ rows) : Precedes (number, registers) held := by
    have later := ordered.later held member
    cases ends : registers.endSequence with
    | true =>
      simp only [ends, ↓reduceIte] at later
      exact .inl (by omega)
    | false =>
      simp only [ends, Bool.false_eq_true, ↓reduceIte, LineRegisters.afterRow] at later
      rcases later with beyond | ⟨same, reached⟩
      · exact .inl beyond
      · exact .inr ⟨same, reached, ends⟩
  refine ⟨List.pairwise_cons.2 ⟨behind, ordered.pairwise⟩, ?_, ?_⟩
  · exact List.forall_mem_cons.2 ⟨fits, ordered.fits⟩
  · refine List.forall_mem_cons.2 ⟨.inr ⟨rfl, Nat.le_refl _⟩, fun held member => ?_⟩
    rcases behind held member with beyond | ⟨same, reached, _⟩
    · exact .inl beyond
    · exact .inr ⟨same, reached⟩

theorem ordered_runSequences {fuel number : Nat} {registers : LineRegisters} {cursor : Cursor}
    {rows : List (Nat × LineRegisters)} (goes_on : registers.endSequence = false)
    (fits : registers.address ≤ maxAddress header.encoding.addressSize)
    (ran : runSequences header fuel number registers cursor = .ok rows) :
    Ordered header number registers.address rows := by
  induction fuel generalizing number registers cursor rows with
  | zero =>
    cases ran
    exact ⟨.nil, nofun, nofun⟩
  | succ fuel ih =>
    rw [runSequences] at ran
    split at ran
    next =>
      cases ran
      exact ⟨.nil, nofun, nofun⟩
    next =>
      obtain ⟨⟨instruction, place⟩, read, ran⟩ := bind_eq_ok.1 ran
      obtain ⟨⟨next, delivers⟩, executed, ran⟩ := bind_eq_ok.1 ran
      have sets := (LineInstruction.ensures_read header _ _ _ read).fits
      obtain ⟨⟨rises, within⟩, quiet⟩ := LineRegisters.execute_advances fits sets executed
      cases delivers with
      | false => exact (ih ((quiet rfl).trans goes_on) within ran).weaken rises
      | true =>
        obtain ⟨behind, delivered, same⟩ := bind_eq_ok.1 ran
        have afterwards : next.afterRow.endSequence = false ∧
            next.afterRow.address ≤ maxAddress header.encoding.addressSize := by
          unfold LineRegisters.afterRow
          split
          next => exact ⟨rfl, Nat.zero_le _⟩
          next going => exact ⟨by simpa using going, within⟩
        have ordered := ih afterwards.1 afterwards.2 delivered
        have whole := (ordered.cons within).weaken rises
        cases same
        split
        next silenced =>
          exact ⟨(List.pairwise_cons.1 whole.pairwise).2, ordered.fits,
            fun held member => whole.later held (List.mem_cons_of_mem _ member)⟩
        next => exact whole

end Symbolizer.Dwarf
