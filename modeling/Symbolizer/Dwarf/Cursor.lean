import Symbolizer.Bytes
import Symbolizer.Dwarf.Fault

/-!
A place in a section and the readers that move it forward. Numbers are little-endian. A LEB128
number has at most ten groups of seven bits and must fit 64 bits; longer spellings of small numbers
are accepted up to that length.
-/

namespace Symbolizer.Dwarf

/-- A position, counted from wherever the reader of it likes, and the bytes from there on. -/
structure Cursor where
  position : Nat
  rest : Bytes
  deriving DecidableEq, Repr

/-- The place `offset` bytes into a section; its end is a place too. -/
def Cursor.at (data : Bytes) (offset : Nat) : Except Fault Cursor :=
  match data.from? offset with
  | some rest => .ok ⟨offset, rest⟩
  | none => .error .unexpectedEnd

abbrev Read := StateT Cursor (Except Fault)

namespace Read

def runAt (read : Read α) (data : Bytes) (offset : Nat) : Except Fault α := do
  let cursor ← Cursor.at data offset
  let (value, _) ← read.run cursor
  return value

def byte : Read UInt8 := fun cursor =>
  match cursor.rest with
  | [] => .error .unexpectedEnd
  | first :: rest => .ok (first, ⟨cursor.position + 1, rest⟩)

def take (count : Nat) : Read Bytes := fun cursor =>
  let piece := cursor.rest.take count
  if piece.length = count then
    .ok (piece, ⟨cursor.position + count, cursor.rest.drop count⟩)
  else .error .unexpectedEnd

def skip (count : Nat) : Read Unit := do
  let _ ← take count

def isEmpty : Read Bool := fun cursor =>
  .ok (cursor.rest.isEmpty, cursor)

def number (width : Nat) : Read Nat := do
  return Bytes.littleEndian (← take width)

def signedByte : Read Int := do
  return (← byte).toInt8.toInt

def cstring : Read Bytes := fun cursor =>
  match Bytes.cstring? cursor.rest with
  | some text =>
    .ok (text, ⟨cursor.position + text.length + 1, cursor.rest.drop (text.length + 1)⟩)
  | none => .error .unexpectedEnd

/-- Seven bits at a time, `left` groups at most; the tenth group has one bit. -/
def unsignedGroups : Nat → Read Nat
  | 0 => throw .badUnsignedLeb128
  | left + 1 => do
    let group ← byte
    if left = 0 ∧ group ≠ 0 ∧ group ≠ 1 then throw .badUnsignedLeb128
    if group < 0x80 then return group.toNat
    return group.toNat % 0x80 + 0x80 * (← unsignedGroups left)

def uleb : Read Nat :=
  unsignedGroups 10

/-- As for unsigned numbers, with the last group read in two's complement. -/
def signedGroups : Nat → Read Int
  | 0 => throw .badSignedLeb128
  | left + 1 => do
    let group ← byte
    if left = 0 ∧ group ≠ 0 ∧ group ≠ 0x7f then throw .badSignedLeb128
    if group < 0x80 then
      return if group < 0x40 then (group.toNat : Int) else (group.toNat : Int) - 0x80
    return (group.toNat % 0x80 : Nat) + 0x80 * (← signedGroups left)

def sleb : Read Int :=
  signedGroups 10

def uleb16 : Read Nat := do
  let first ← byte
  if first < 0x80 then return first.toNat
  let second ← byte
  let low := first.toNat % 0x80 + 0x80 * (second.toNat % 0x80)
  if second < 0x80 then return low
  let third ← byte
  if 3 < third then throw .badUnsignedLeb128
  return low + 0x4000 * third.toNat

def times : Nat → Read α → Read (List α)
  | 0, _ => return []
  | count + 1, read => do
    let first ← read
    return first :: (← times count read)

/-- Values up to the first nothing. A reader that always moves forward ends within `fuel` steps when
that exceeds the number of bytes left. -/
def untilNone : Nat → Read (Option α) → Read (List α)
  | 0, _ => throw .unexpectedEnd
  | fuel + 1, read => do
    match ← read with
    | none => return []
    | some first => return first :: (← untilNone fuel read)

def listOf (read : Read (Option α)) : Read (List α) := do
  untilNone ((← get).rest.length + 1) read

end Read

end Symbolizer.Dwarf
