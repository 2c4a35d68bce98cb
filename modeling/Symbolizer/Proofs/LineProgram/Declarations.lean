import Symbolizer.Proofs.LineProgram.Emission

/-!
The rows of a line program with the instructions executed up to each of them, and so with the files that the
program has added by then. Only programs before version 5 add files, and these have their paths spelled out.
-/

namespace Symbolizer.Dwarf

structure DeliveredRow where
  executed : List LineInstruction
  registers : LineRegisters
  deriving DecidableEq

def LineInstruction.added? : LineInstruction → Option FileEntry
  | .defineFile entry => some entry
  | _ => none

def DeliveredRow.added (row : DeliveredRow) : List FileEntry :=
  row.executed.filterMap LineInstruction.added?

def runRecorded (header : LineHeader) :
    Nat → List LineInstruction → LineRegisters → Cursor → Except Fault (List DeliveredRow)
  | 0, _, _, _ => .ok []
  | fuel + 1, executed, registers, cursor => do
    if cursor.rest.isEmpty then return []
    let (instruction, next) ← (LineInstruction.read header).run cursor
    let (registers, delivers) ← registers.execute header instruction
    let executed := executed ++ [instruction]
    if delivers then
      let rows ← runRecorded header fuel executed registers.afterRow next
      return if registers.silenced then rows else ⟨executed, registers⟩ :: rows
    runRecorded header fuel executed registers next

def LineHeader.deliveredRows (header : LineHeader) : Except Fault (List DeliveredRow) :=
  runRecorded header (header.program.length + 1) [] LineRegisters.initial ⟨0, header.program⟩

theorem map_runRecorded (header : LineHeader) (fuel : Nat) (executed : List LineInstruction)
    (registers : LineRegisters) (cursor : Cursor) :
    (runRecorded header fuel executed registers cursor).map (List.map DeliveredRow.registers) =
      runInstructions header fuel registers cursor :=
  map_of_notes (fun executed instruction _ => executed ++ [instruction])
    (fun executed instruction _ => executed ++ [instruction])
    (fun executed instruction registers => ⟨executed ++ [instruction], registers⟩) (fun _ _ _ => rfl)
    (fun _ _ _ => rfl) (fun _ _ _ _ => rfl) fuel executed registers cursor

theorem map_deliveredRows (header : LineHeader) :
    header.deliveredRows.map (List.map DeliveredRow.registers) = header.rows :=
  map_runRecorded _ _ _ _ _

variable {header : LineHeader} {row : DeliveredRow} {rows : List DeliveredRow} {entry : FileEntry}

theorem sound_runRecorded {fuel : Nat} {executed : List LineInstruction} {registers : LineRegisters}
    {cursor : Cursor} (sound : ∀ instruction ∈ executed, instruction.Sound header)
    (ran : runRecorded header fuel executed registers cursor = .ok rows) :
    ∀ row ∈ rows, ∀ instruction ∈ row.executed, instruction.Sound header := by
  induction fuel generalizing executed registers cursor rows with
  | zero =>
    cases ran
    exact nofun
  | succ fuel ih =>
    rw [runRecorded] at ran
    split at ran
    next =>
      cases ran
      exact nofun
    next =>
      obtain ⟨⟨instruction, place⟩, read, ran⟩ := bind_eq_ok.1 ran
      obtain ⟨⟨next, delivers⟩, _, ran⟩ := bind_eq_ok.1 ran
      have longer : ∀ held ∈ executed ++ [instruction], held.Sound header :=
        List.forall_mem_append.2
          ⟨sound, List.forall_mem_singleton.2 (LineInstruction.ensures_read header _ _ _ read)⟩
      cases delivers with
      | false => exact ih longer ran
      | true =>
        obtain ⟨behind, delivered, same⟩ := bind_eq_ok.1 ran
        have rest := ih longer delivered
        cases same
        split
        next => exact rest
        next => exact List.forall_mem_cons.2 ⟨longer, rest⟩

theorem spelled_of_added (ran : header.deliveredRows = .ok rows) (member : row ∈ rows)
    (added : entry ∈ row.added) : header.encoding.version ≤ 4 ∧ ∃ text, entry.path = .text text := by
  obtain ⟨instruction, inside, adds⟩ := List.mem_filterMap.1 added
  have sound := sound_runRecorded (List.forall_mem_nil _) ran row member instruction inside
  refine sound.spelled entry ?_
  cases instruction with
  | defineFile held =>
    cases adds
    rfl
  | _ => cases adds

end Symbolizer.Dwarf
