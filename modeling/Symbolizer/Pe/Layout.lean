import Symbolizer.Pe.FileKind
import Symbolizer.ObjectFile

/-!
The headers and sections of a PE image. Section names longer than eight bytes live in the string
table behind the symbol table; a name that refers outside it reads as the empty name. A section has
data when its size is not zero and its range lies inside the file.
-/

namespace Symbolizer.Pe

inductive LayoutFault where
  | ntHeaders
  | optionalTooSmall
  | optionalSize
  | directoryCount
  | sectionHeaders
  deriving DecidableEq, Repr

def LayoutFault.message : LayoutFault → String
  | .ntHeaders => "Invalid PE headers offset or size"
  | .optionalTooSmall => "PE optional header size is too small"
  | .optionalSize => "Invalid PE optional header size"
  | .directoryCount => "Invalid PE number of RVA and sizes"
  | .sectionHeaders => "Invalid COFF/PE section headers"

def machine386 : Nat := 0x14c

def orFault (value : Option α) (fault : LayoutFault) : Except LayoutFault α :=
  match value with
  | some a => .ok a
  | none => .error fault

def field (header : Bytes) (offset width : Nat) : Nat :=
  Bytes.littleEndian ((header.drop offset).take width)

/-- The names behind the symbol table. The length that starts the table counts itself. -/
structure StringTable where
  bytes : Bytes
  deriving Repr

def StringTable.ofFile? (data : Bytes) (symbolTable symbolCount : Nat) : Option StringTable := do
  guard (symbolTable ≠ 0)
  let start := symbolTable + symbolCount * 18
  let length ← data.number? start 4
  return ⟨(data.slice? start length).getD []⟩

def StringTable.name? (table : StringTable) (offset : Nat) : Option Bytes :=
  if offset ≤ table.bytes.length then Bytes.cstring? (table.bytes.drop offset) else none

def base64Digit (byte : UInt8) : Option Nat :=
  let b := byte.toNat
  if 0x41 ≤ b ∧ b ≤ 0x5a then some (b - 0x41)
  else if 0x61 ≤ b ∧ b ≤ 0x7a then some (b - 0x61 + 26)
  else if 0x30 ≤ b ∧ b ≤ 0x39 then some (b - 0x30 + 52)
  else if b = 0x2b then some 62
  else if b = 0x2f then some 63
  else none

def readBase64 : Nat → Bytes → Option Nat
  | value, [] => if value < UInt32.size then some value else none
  | value, byte :: rest =>
    match base64Digit byte with
    | some digit => readBase64 (value * 64 + digit) rest
    | none => none

def readDecimal : Nat → Bytes → Option Nat
  | value, [] => some value
  | value, byte :: rest =>
    if byte = 0 then some value
    else if 0x30 ≤ byte.toNat ∧ byte.toNat ≤ 0x39 then
      readDecimal (value * 10 + (byte.toNat - 0x30)) rest
    else none

def sectionNameBytes? (strings : Option StringTable) (raw : Bytes) : Option Bytes :=
  match raw with
  | 0x2f :: 0x2f :: digits => do (← strings).name? (← readBase64 0 digits)
  | 0x2f :: digits => do (← strings).name? (← readDecimal 0 digits)
  | _ => some (raw.takeWhile (· != 0))

/-- A section from its forty-byte header. The smaller of the two sizes counts. -/
def sectionOfHeader (data : Bytes) (strings : Option StringTable) (header : Bytes) : Section :=
  let name := (sectionNameBytes? strings (header.take 8)).getD []
  let size := min (field header 8 4) (field header 16 4)
  let offset := field header 20 4
  ⟨Text.Utf8.toText name, if size = 0 then none else data.slice? offset size⟩

def sectionHeaders : Nat → Bytes → List Bytes
  | 0, _ => []
  | count + 1, table => table.take 40 :: sectionHeaders count (table.drop 40)

def readObject (kind : FileKind) (data : Bytes) : Except LayoutFault ObjectFile := do
  let start := field data 60 4
  let fixed := optionalHeaderSize kind
  let headers ← orFault (data.slice? start (ntHeaderSize + fixed)) .ntHeaders
  let optional := headers.drop ntHeaderSize
  let optionalSize := field headers 20 2
  if optionalSize < fixed then throw .optionalTooSmall
  let directories ← orFault (data.slice? (start + ntHeaderSize + fixed) (optionalSize - fixed))
    .optionalSize
  if directories.length < field optional (fixed - 4) 4 * 8 then throw .directoryCount
  let count := field headers 6 2
  let table ← orFault (data.slice? (start + ntHeaderSize + optionalSize) (count * 40))
    .sectionHeaders
  let strings := StringTable.ofFile? data (field headers 12 4) (field headers 16 4)
  let base := if kind = .pe64 then field optional 24 8 else field optional 28 4
  return {
    pointerSize := if field headers 4 2 = machine386 then 4 else 8
    declaredBase := some (UInt64.ofNat base)
    sections := (sectionHeaders count table).map (sectionOfHeader data strings)
  }

end Symbolizer.Pe
