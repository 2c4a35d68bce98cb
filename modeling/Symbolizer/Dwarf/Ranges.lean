import Symbolizer.Dwarf.CompilationUnit

/-!
The address ranges of an entry: a range list when it has a usable one, else the interval between its
low and high addresses. Up to version 4 a list is a sequence of address pairs, from version 5 on of
tagged entries. Empty and backward ranges and ranges of dropped code are skipped, and the end of the
section ends a list.
-/

namespace Symbolizer.Dwarf

structure Range where
  low : Nat
  high : Nat
  deriving DecidableEq, Repr

def Range.contains (range : Range) (address : Nat) : Bool :=
  range.low ≤ address && address < range.high

/-- Ranges in order, with the fault that cut the list short, if any. -/
structure RangeList where
  ranges : List Range
  fault : Option Fault
  deriving DecidableEq, Repr

namespace RangeList

def empty : RangeList := ⟨[], none⟩

def cons (range : Range) (list : RangeList) : RangeList :=
  { list with ranges := range :: list.ranges }

/-- A range that contains the address counts even when a later one cannot be read. -/
def covers (list : RangeList) (address : Nat) : Except Fault Bool :=
  if list.ranges.any (·.contains address) then .ok true
  else
    match list.fault with
    | none => .ok false
    | some fault => .error fault

inductive Raw where
  | base (address : Nat)
  | basex (index : Nat)
  | startxEndx (low high : Nat)
  | startxLength (low length : Nat)
  | offsetPair (low high : Nat)
  | startEnd (low high : Nat)
  | startLength (low length : Nat)
  deriving DecidableEq, Repr

/-- A pair of addresses; two zeros end the list, a low address of all ones selects a base. -/
def addressPair (encoding : Encoding) : Read (Option Raw) := do
  let low ← Read.address encoding
  let high ← Read.address encoding
  if low = 0 ∧ high = 0 then return none
  if low = maxAddress encoding.addressSize then return some (.base high)
  return some (.offsetPair low high)

def taggedEntry (encoding : Encoding) : Read (Option Raw) := do
  match (← Read.byte).toNat with
  | 0 => return none
  | 1 => return some (.basex (← Read.uleb))
  | 2 => return some (.startxEndx (← Read.uleb) (← Read.uleb))
  | 3 => return some (.startxLength (← Read.uleb) (← Read.uleb))
  | 4 => return some (.offsetPair (← Read.uleb) (← Read.uleb))
  | 5 => return some (.base (← Read.address encoding))
  | 6 => return some (.startEnd (← Read.address encoding) (← Read.address encoding))
  | 7 => return some (.startLength (← Read.address encoding) (← Read.uleb))
  | _ => throw .unknownRangeListsEntry

def rawEntry (encoding : Encoding) : Read (Option Raw) :=
  if encoding.version ≤ 4 then addressPair encoding else taggedEntry encoding

def interpret (sections : Sections) (unit : CompilationUnit) (base : Nat) :
    Raw → Except Fault (Nat × Option Range)
  | .base address => .ok (address, none)
  | .basex index => do return (← indexed index, none)
  | .startxEndx low high => do
    let low ← indexed low
    return (base, some ⟨low, ← indexed high⟩)
  | .startxLength low length => do
    let low ← indexed low
    return (base, some ⟨low, wrapAddress size low length⟩)
  | .offsetPair low high =>
    if isTombstone size base then .ok (base, none)
    else .ok (base, some ⟨wrapAddress size base low, wrapAddress size base high⟩)
  | .startEnd low high => .ok (base, some ⟨low, high⟩)
  | .startLength low length => .ok (base, some ⟨low, wrapAddress size low length⟩)
where
  size := unit.encoding.addressSize
  indexed (index : Nat) : Except Fault Nat := sections.address unit.bases size index

def isUsable (size : Nat) (range : Range) : Bool :=
  !isTombstone size range.low && range.low < range.high

/-- The list from a cursor on; `fuel` exceeds the number of bytes left. -/
def decode (sections : Sections) (unit : CompilationUnit) : Nat → Nat → Cursor → RangeList
  | 0, _, _ => empty
  | fuel + 1, base, cursor =>
    if cursor.rest.isEmpty then empty
    else
      match (rawEntry unit.encoding).run cursor with
      | .error fault => ⟨[], some fault⟩
      | .ok (none, _) => empty
      | .ok (some raw, next) =>
        match interpret sections unit base raw with
        | .error fault => ⟨[], some fault⟩
        | .ok (base, none) => decode sections unit fuel base next
        | .ok (base, some range) =>
          let rest := decode sections unit fuel base next
          if isUsable unit.encoding.addressSize range then rest.cons range else rest

/-- The list at an offset of the section that the version of the unit calls for. -/
def atOffset (sections : Sections) (unit : CompilationUnit) (offset : Nat) : Except Fault RangeList := do
  let data := if unit.encoding.version ≤ 4 then sections.ranges else sections.rnglists
  let cursor ← Cursor.at data offset
  return decode sections unit (cursor.rest.length + 1) unit.lowPc cursor

def indexedOffset (sections : Sections) (unit : CompilationUnit) (index : Nat) : Except Fault Nat := do
  let format := unit.encoding.format
  let place ← slot unit.bases.rnglists index format.wordSize sections.rnglists
  let (offset, _) ← (Read.offset format).run place
  return unit.bases.rnglists + offset

def ofValue? (sections : Sections) (unit : CompilationUnit) : Value → Except Fault (Option RangeList)
  | .sectionOffset offset => some <$> atOffset sections unit offset
  | .rangeListIndex index => do
    return some (← atOffset sections unit (← indexedOffset sections unit index))
  | _ => .ok none

end RangeList

structure PcBounds where
  low : Option Nat
  high : Option Nat
  length : Option Nat
  deriving DecidableEq, Repr

/-- A length counts before a high address; the sum is taken modulo 2^64. -/
def PcBounds.ranges (bounds : PcBounds) : List Range :=
  match bounds.low with
  | none => []
  | some low =>
    match bounds.length, bounds.high with
    | some length, _ => [⟨low, (low + length) % UInt64.size⟩]
    | none, some high => [⟨low, high⟩]
    | none, none => []

namespace CompilationUnit

def requiredAddress (unit : CompilationUnit) (sections : Sections) (value : Value) : Except Fault Nat := do
  match ← unit.addressOf? sections value with
  | some address => return address
  | none => throw .unsupportedAttributeForm

/-- Ranges from attributes in order; the first usable list wins over whatever came before it. -/
def rangesFrom (unit : CompilationUnit) (sections : Sections) (stop : Except Fault Cursor) :
    PcBounds → List Attribute → Except Fault RangeList
  | bounds, [] => do
    let _ ← stop
    return ⟨bounds.ranges, none⟩
  | bounds, attr :: rest => do
    if attr.name = Name.lowPc then
      let low ← unit.requiredAddress sections attr.value
      unit.rangesFrom sections stop { bounds with low := some low } rest
    else if attr.name = Name.highPc then
      match attr.value with
      | .constant length =>
        unit.rangesFrom sections stop { bounds with length := some length } rest
      | value =>
        let high ← unit.requiredAddress sections value
        unit.rangesFrom sections stop { bounds with high := some high } rest
    else if attr.name = Name.ranges then
      match ← RangeList.ofValue? sections unit attr.value with
      | some list => return list
      | none => unit.rangesFrom sections stop bounds rest
    else unit.rangesFrom sections stop bounds rest

def entryRanges (unit : CompilationUnit) (sections : Sections) (entry : Entry) : Except Fault RangeList :=
  unit.rangesFrom sections entry.stop ⟨none, none, none⟩ entry.attributes

def ranges (unit : CompilationUnit) (sections : Sections) : Except Fault RangeList := do
  unit.entryRanges sections (← rootEntry unit.header unit.abbreviations)

end CompilationUnit

end Symbolizer.Dwarf
