import Symbolizer.Dwarf.Sections

/-!
Line programs: the header with its tables of directories and files, the instructions, and the
registers they drive. An address that stands for dropped code, or that goes backwards, silences the
program until the next good address or the end of the sequence.
-/

namespace Symbolizer.Dwarf

structure FileEntry where
  path : Value
  directory : Nat
  deriving DecidableEq, Repr

structure LineHeader where
  encoding : Encoding
  minimumInstructionLength : Nat
  maximumOperations : Nat
  lineBase : Int
  lineRange : Nat
  opcodeBase : Nat
  /-- How many operands each standard opcode takes, from opcode one on. -/
  operandCounts : Bytes
  directories : List Value
  files : List FileEntry
  program : Bytes
  deriving Repr

namespace LineHeader

def oldDirectory : Read (Option Value) := do
  let path ← Read.cstring
  return if path.isEmpty then none else some (.text path)

/-- A name with its directory; time and size follow and are passed over. -/
def oldFileFields (path : Bytes) : Read FileEntry := do
  let directory ← Read.uleb
  let _ ← Read.uleb
  let _ ← Read.uleb
  return ⟨.text path, directory⟩

def oldFile : Read (Option FileEntry) := do
  let path ← Read.cstring
  if path.isEmpty then return none
  return some (← oldFileFields path)

structure FieldFormat where
  content : Nat
  form : Nat
  deriving DecidableEq, Repr

def pathContent : Nat := 1
def directoryContent : Nat := 2

def fieldFormats : Read (List FieldFormat) := do
  let count := (← Read.byte).toNat
  let formats ← Read.times count do
    let content ← Read.uleb
    return FieldFormat.mk content (← Read.uleb16)
  if (formats.countP (·.content == pathContent)) ≠ 1 then throw .missingPath
  return formats

def tableForms : List Nat :=
  [0x03, 0x04, 0x05, 0x06, 0x07, 0x08, 0x09, 0x0a, 0x0b, 0x0c, 0x0d, 0x0e, 0x0f, 0x17, 0x1a, 0x1d,
    0x1e, 0x1f, 0x25, 0x26, 0x27, 0x28, 0x1f02, 0x1f21]

def fieldValue (encoding : Encoding) (form : Nat) : Read Value := do
  if form ∉ tableForms then throw .unknownForm
  Read.directValue encoding 0 none form

def fields (encoding : Encoding) : List FieldFormat → Read (List (Nat × Value))
  | [] => return []
  | format :: formats => do
    let value ← fieldValue encoding format.form
    return (format.content, value) :: (← fields encoding formats)

def contentOf? (content : Nat) (values : List (Nat × Value)) : Option Value :=
  (values.find? (·.1 == content)).map Prod.snd

/-- The directory of a file comes from the last field that holds a constant. -/
def directoryOf (values : List (Nat × Value)) : Nat :=
  (values.foldl (fun found (content, value) =>
    if content = directoryContent then value.constant?.or found else found) none).getD 0

def table (encoding : Encoding) : Read (List (List (Nat × Value))) := do
  let formats ← fieldFormats
  let count ← Read.uleb
  Read.times count (fields encoding formats)

def pathOf (values : List (Nat × Value)) : Value :=
  (contentOf? pathContent values).getD .uninterpreted

def tables (encoding : Encoding) : Read (List Value × List FileEntry) := do
  if encoding.version ≤ 4 then
    let directories ← Read.listOf oldDirectory
    return (directories, ← Read.listOf oldFile)
  let directories ← table encoding
  let files ← table encoding
  return (directories.map pathOf, files.map fun values => ⟨pathOf values, directoryOf values⟩)

def body (encoding : Encoding) (program : Bytes) : Read LineHeader := do
  let minimumInstructionLength := (← Read.byte).toNat
  if minimumInstructionLength = 0 then throw .minimumInstructionLengthZero
  let maximumOperations ← if 4 ≤ encoding.version then Read.number 1 else pure 1
  if maximumOperations = 0 then throw .maximumOperationsZero
  let _ ← Read.byte
  let lineBase ← Read.signedByte
  let lineRange := (← Read.byte).toNat
  if lineRange = 0 then throw .lineRangeZero
  let opcodeBase := (← Read.byte).toNat
  if opcodeBase = 0 then throw .opcodeBaseZero
  let operandCounts ← Read.take (opcodeBase - 1)
  let (directories, files) ← tables encoding
  return {
    encoding, minimumInstructionLength, maximumOperations, lineBase, lineRange, opcodeBase,
    operandCounts, directories, files, program
  }

/-- The header at the cursor. From version 5 on it brings its own address size. -/
def read (unitAddressSize : Nat) : Read LineHeader := do
  let (length, format) ← Read.initialLength
  let unit ← Read.take length
  let inside : Read LineHeader := do
    let version ← Read.number 2
    if version < 2 ∨ 5 < version then throw .unknownVersion
    let size ← if 5 ≤ version then Read.addressSize else pure unitAddressSize
    if 5 ≤ version then
      if (← Read.byte) ≠ 0 then throw .unsupportedSegmentSize
    let headerLength ← Read.offset format
    let header ← Read.take headerLength
    let program := (← get).rest
    let (value, _) ← (body ⟨format, version, size⟩ program).run ⟨0, header⟩
    return value
  let (value, _) ← inside.run ⟨0, unit⟩
  return value

/-- The directory of an index. Before version 5 index zero is the compilation directory. -/
def directory? (header : LineHeader) (index : Nat) : Option Value :=
  if header.encoding.version ≤ 4 then
    match index with
    | 0 => none
    | index + 1 => header.directories[index]?
  else header.directories[index]?

end LineHeader

inductive LineInstruction where
  | special (opcode : Nat)
  | copy
  | advancePc (operations : Nat)
  | advanceLine (distance : Int)
  | setFile (index : Nat)
  | setColumn (column : Nat)
  | constAddPc
  | fixedAddPc (distance : Nat)
  | endSequence
  | setAddress (address : Nat)
  | defineFile (entry : FileEntry)
  /-- Instructions that no row depends on. -/
  | other
  deriving DecidableEq, Repr

namespace LineInstruction

def extended (header : LineHeader) : Read LineInstruction := do
  match (← Read.byte).toNat with
  | 1 => return .endSequence
  | 2 => LineInstruction.setAddress <$> Read.address header.encoding
  | 3 =>
    if header.encoding.version ≤ 4 then
      let path ← Read.cstring
      return .defineFile (← LineHeader.oldFileFields path)
    return .other
  | 4 => do
    let _ ← Read.uleb
    return .other
  | _ => return .other

/-- A standard opcode that this version does not know takes the operands the header declares. -/
def unknown (header : LineHeader) (opcode : Nat) : Read LineInstruction := do
  match header.operandCounts[opcode - 1]? with
  | none => throw .unexpectedEnd
  | some count =>
    let _ ← Read.times count.toNat Read.uleb
    return .other

def read (header : LineHeader) : Read LineInstruction := do
  let opcode := (← Read.byte).toNat
  if opcode = 0 then
    let length ← Read.uleb
    let bytes ← Read.take length
    let (instruction, _) ← (extended header).run ⟨0, bytes⟩
    return instruction
  if header.opcodeBase ≤ opcode then return .special opcode
  match opcode with
  | 1 => return .copy
  | 2 => LineInstruction.advancePc <$> Read.uleb
  | 3 => LineInstruction.advanceLine <$> Read.sleb
  | 4 => LineInstruction.setFile <$> Read.uleb
  | 5 => LineInstruction.setColumn <$> Read.uleb
  | 6 => return .other
  | 7 => return .other
  | 8 => return .constAddPc
  | 9 => LineInstruction.fixedAddPc <$> Read.number 2
  | 10 => return .other
  | 11 => return .other
  | 12 => do
    let _ ← Read.uleb
    return .other
  | _ => unknown header opcode

end LineInstruction

structure LineRegisters where
  address : Nat
  operation : UInt64
  file : Nat
  line : UInt64
  column : Nat
  endSequence : Bool
  /-- Set while the code is one the linker dropped. -/
  silenced : Bool
  deriving DecidableEq, Repr

namespace LineRegisters

def initial : LineRegisters :=
  ⟨0, 0, 1, 1, 0, false, false⟩

/-- Below line zero is line zero; upwards the line wraps. -/
def advanceLine (registers : LineRegisters) (distance : Int) : LineRegisters :=
  match distance with
  | .ofNat up => { registers with line := registers.line + UInt64.ofNat up }
  | .negSucc down =>
    { registers with line := UInt64.ofNat (registers.line.toNat - (down + 1)) }

def advanceOperations (header : LineHeader) (registers : LineRegisters) (count : Nat) :
    Except Fault LineRegisters := do
  if registers.silenced then return registers
  let count := UInt64.ofNat count
  let perInstruction := UInt64.ofNat header.maximumOperations
  let length := UInt64.ofNat header.minimumInstructionLength
  let total := if perInstruction = 1 then count else registers.operation + count
  let address ← addAddress header.encoding.addressSize registers.address
    (length * (total / perInstruction)).toNat
  return { registers with address, operation := total % perInstruction }

def execute (header : LineHeader) (registers : LineRegisters) :
    LineInstruction → Except Fault (LineRegisters × Bool)
  | .special opcode => do
    let adjusted := opcode - header.opcodeBase
    let registers := registers.advanceLine (header.lineBase + (adjusted % header.lineRange : Nat))
    return (← registers.advanceOperations header (adjusted / header.lineRange), true)
  | .copy => .ok (registers, true)
  | .advancePc operations => do
    return (← registers.advanceOperations header operations, false)
  | .advanceLine distance => .ok (registers.advanceLine distance, false)
  | .setFile index => .ok ({ registers with file := index }, false)
  | .setColumn column => .ok ({ registers with column }, false)
  | .constAddPc => do
    let operations := (255 - header.opcodeBase) / header.lineRange
    return (← registers.advanceOperations header operations, false)
  | .fixedAddPc distance => do
    if registers.silenced then return (registers, false)
    let address ← addAddress header.encoding.addressSize registers.address distance
    return ({ registers with address, operation := 0 }, false)
  | .endSequence => .ok ({ registers with endSequence := true }, true)
  | .setAddress address =>
    if address < registers.address || isTombstone header.encoding.addressSize address then
      .ok ({ registers with silenced := true }, false)
    else .ok ({ registers with address, operation := 0, silenced := false }, false)
  | .defineFile _ => .ok (registers, false)
  | .other => .ok (registers, false)

/-- After a delivered row only the end of a sequence leaves a trace. -/
def afterRow (registers : LineRegisters) : LineRegisters :=
  if registers.endSequence then initial else registers

end LineRegisters

/-- The rows that instructions deliver from a state on; `fuel` exceeds the number of bytes left. -/
def runInstructions (header : LineHeader) :
    Nat → LineRegisters → Cursor → Except Fault (List LineRegisters)
  | 0, _, _ => .ok []
  | fuel + 1, registers, cursor => do
    if cursor.rest.isEmpty then return []
    let (instruction, next) ← (LineInstruction.read header).run cursor
    let (registers, delivers) ← registers.execute header instruction
    if delivers then
      let rows ← runInstructions header fuel registers.afterRow next
      return if registers.silenced then rows else registers :: rows
    runInstructions header fuel registers next

def LineHeader.rows (header : LineHeader) : Except Fault (List LineRegisters) :=
  runInstructions header (header.program.length + 1) LineRegisters.initial ⟨0, header.program⟩

end Symbolizer.Dwarf
