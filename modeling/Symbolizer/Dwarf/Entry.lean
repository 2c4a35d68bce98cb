import Symbolizer.Dwarf.Abbreviation

/-!
Units and their entries. Attributes are decoded from left to right; a fault ends the list but does
not hide the attributes in front of it. Offsets of entries count from the start of the unit header.
-/

namespace Symbolizer.Dwarf

structure UnitHeader where
  /-- Where the header starts in the section of entries. -/
  offset : Nat
  encoding : Encoding
  abbrevOffset : Nat
  headerSize : Nat
  entries : Bytes
  deriving Repr

namespace UnitHeader

/-- The fields that follow the common ones, by unit type: an identifier, and for types an offset. -/
def extraFields (format : Format) : Nat → Read Unit
  | 1 => pure ()
  | 2 => do Read.skip 8; Read.skip format.wordSize
  | 3 => pure ()
  | 4 => Read.skip 8
  | 5 => Read.skip 8
  | 6 => do Read.skip 8; Read.skip format.wordSize
  | _ => throw .unsupportedUnitType

def read : Read UnitHeader := do
  let start := (← get).position
  let (length, format) ← Read.initialLength
  let bodyStart := (← get).position
  let body ← Read.take length
  let fields : Read (Encoding × Nat) := do
    let version ← Read.number 2
    if 2 ≤ version ∧ version ≤ 4 then
      let abbrevOffset ← Read.offset format
      let size ← Read.addressSize
      return (⟨format, version, size⟩, abbrevOffset)
    if version ≠ 5 then throw .unknownVersion
    let unitType := (← Read.byte).toNat
    let size ← Read.addressSize
    let abbrevOffset ← Read.offset format
    extraFields format unitType
    return (⟨format, version, size⟩, abbrevOffset)
  let ((encoding, abbrevOffset), behind) ← fields.run ⟨bodyStart, body⟩
  return ⟨start, encoding, abbrevOffset, behind.position - start, behind.rest⟩

def atOffset (info : Bytes) (offset : Nat) : Except Fault UnitHeader :=
  read.runAt info offset

/-- All headers up to the first that cannot be read; `fuel` exceeds the number of bytes left. -/
def allFrom : Nat → Cursor → List UnitHeader
  | 0, _ => []
  | fuel + 1, cursor =>
    if cursor.rest.isEmpty then []
    else
      match read.run cursor with
      | .ok (header, next) => header :: allFrom fuel next
      | .error _ => []

def all (info : Bytes) : List UnitHeader :=
  allFrom (info.length + 1) ⟨0, info⟩

def holds (header : UnitHeader) (offset : Nat) : Bool :=
  header.headerSize ≤ offset && offset - header.headerSize < header.entries.length

def local? (header : UnitHeader) (offset : Nat) : Option Nat :=
  if header.offset ≤ offset ∧ header.holds (offset - header.offset) then
    some (offset - header.offset)
  else none

def cursorAt? (header : UnitHeader) (offset : Nat) : Option Cursor :=
  if header.holds offset then some ⟨offset, header.entries.drop (offset - header.headerSize)⟩
  else none

def start (header : UnitHeader) : Cursor :=
  ⟨header.headerSize, header.entries⟩

end UnitHeader

structure Entry where
  offset : Nat
  tag : Nat
  hasChildren : Bool
  attributes : List Attribute
  /-- Where the entry ends, or the fault that cut its attributes short. -/
  stop : Except Fault Cursor

namespace Entry

def decodeAttributes (encoding : Encoding) :
    List AttributeSpec → Cursor → List Attribute × Except Fault Cursor
  | [], cursor => ([], .ok cursor)
  | spec :: specs, cursor =>
    match (Read.attributeOf encoding spec).run cursor with
    | .error fault => ([], .error fault)
    | .ok (attr, next) =>
      let (attributes, stop) := decodeAttributes encoding specs next
      (attr :: attributes, stop)

/-- The first attribute of a name. A fault in front of where it would stand is that fault. -/
def attribute? (entry : Entry) (name : Nat) : Except Fault (Option Value) :=
  match entry.attributes.find? (·.name == name) with
  | some attr => .ok (some attr.value)
  | none =>
    match entry.stop with
    | .ok _ => .ok none
    | .error fault => .error fault

inductive Item where
  | null (next : Cursor)
  | entry (entry : Entry)

def read (encoding : Encoding) (abbreviations : List Abbreviation) (cursor : Cursor) :
    Except Fault Item := do
  let (code, next) ← Read.uleb.run cursor
  if code = 0 then return .null next
  match abbreviations.find? (·.code == code) with
  | none => throw .unknownAbbreviation
  | some abbreviation =>
    let (attributes, stop) := decodeAttributes encoding abbreviation.attributes next
    return .entry ⟨cursor.position, abbreviation.tag, abbreviation.hasChildren, attributes, stop⟩

end Entry

end Symbolizer.Dwarf
