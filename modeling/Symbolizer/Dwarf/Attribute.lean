import Symbolizer.Dwarf.Encoding

/-!
Attributes of entries: names, forms, and values decoded from them. A value keeps only what the
rules of this library ask for; forms that none of them looks into are passed over with their size.
-/

namespace Symbolizer.Dwarf

namespace Name

def sibling : Nat := 0x01
def name : Nat := 0x03
def stmtList : Nat := 0x10
def lowPc : Nat := 0x11
def highPc : Nat := 0x12
def compDir : Nat := 0x1b
def abstractOrigin : Nat := 0x31
def specification : Nat := 0x47
def ranges : Nat := 0x55
def callColumn : Nat := 0x57
def callFile : Nat := 0x58
def callLine : Nat := 0x59
def linkageName : Nat := 0x6e
def strOffsetsBase : Nat := 0x72
def addrBase : Nat := 0x73
def rnglistsBase : Nat := 0x74
def mipsLinkageName : Nat := 0x2007
def gnuRangesBase : Nat := 0x2132
def gnuAddrBase : Nat := 0x2133

def sectionOffsets : List Nat :=
  [stmtList, ranges]

end Name

namespace Tag

def inlinedSubroutine : Nat := 0x1d
def subprogram : Nat := 0x2e

end Tag

inductive Value where
  | address (value : Nat)
  | addressIndex (index : Nat)
  /-- A constant that is not negative. -/
  | constant (value : Nat)
  | negative (value : Int)
  | sectionOffset (offset : Nat)
  | unitRef (offset : Nat)
  | infoRef (offset : Nat)
  | text (bytes : Bytes)
  | strOffset (offset : Nat)
  | lineStrOffset (offset : Nat)
  | strIndex (index : Nat)
  | rangeListIndex (index : Nat)
  | block (bytes : Bytes)
  | uninterpreted
  deriving DecidableEq, Repr

namespace Value

def ofInt (value : Int) : Value :=
  match value with
  | .ofNat n => .constant n
  | value => .negative value

def constant? : Value → Option Nat
  | .constant value => some value
  | _ => none

end Value

structure AttributeSpec where
  name : Nat
  form : Nat
  /-- Given with the specification for one form only. -/
  implicit : Option Int
  deriving DecidableEq, Repr

structure Attribute where
  name : Nat
  value : Value
  deriving DecidableEq, Repr

namespace Read

def blockOf (length : Read Nat) : Read Value := do
  return .block (← take (← length))

def pass (count : Nat) : Read Value := do
  skip count
  return .uninterpreted

/-- A number of the offset's width is a section offset where the attribute calls for one. -/
def plainNumber (encoding : Encoding) (name width : Nat) : Read Value := do
  let value ← number width
  let isOffset := encoding.format.wordSize = width ∧ name ∈ Name.sectionOffsets
  return if isOffset then .sectionOffset value else .constant value

def directValue (encoding : Encoding) (name : Nat) (implicit : Option Int) (form : Nat) :
    Read Value :=
  match form with
  | 0x01 => Value.address <$> address encoding
  | 0x03 => blockOf (number 2)
  | 0x04 => blockOf (number 4)
  | 0x05 => Value.constant <$> number 2
  | 0x06 => plainNumber encoding name 4
  | 0x07 => plainNumber encoding name 8
  | 0x08 => Value.text <$> cstring
  | 0x09 => blockOf uleb
  | 0x0a => blockOf (number 1)
  | 0x0b => Value.constant <$> number 1
  | 0x0c => pass 1
  | 0x0d => Value.ofInt <$> sleb
  | 0x0e => Value.strOffset <$> offset encoding.format
  | 0x0f => Value.constant <$> uleb
  | 0x10 =>
    -- As wide as an address in version 2.
    Value.infoRef <$>
      number (if encoding.version = 2 then encoding.addressSize else encoding.format.wordSize)
  | 0x11 => Value.unitRef <$> number 1
  | 0x12 => Value.unitRef <$> number 2
  | 0x13 => Value.unitRef <$> number 4
  | 0x14 => Value.unitRef <$> number 8
  | 0x15 => Value.unitRef <$> uleb
  | 0x17 => Value.sectionOffset <$> offset encoding.format
  | 0x18 => do
    let _ ← blockOf uleb
    return .uninterpreted
  | 0x19 => return .uninterpreted
  | 0x1a => Value.strIndex <$> uleb
  | 0x1b => Value.addressIndex <$> uleb
  | 0x1c => pass 4
  | 0x1d => pass encoding.format.wordSize
  | 0x1e => blockOf (return 16)
  | 0x1f => Value.lineStrOffset <$> offset encoding.format
  | 0x20 => pass 8
  | 0x21 =>
    match implicit with
    | some value => return .ofInt value
    | none => throw .invalidImplicitConst
  | 0x22 => do
    let _ ← uleb
    return .uninterpreted
  | 0x23 => Value.rangeListIndex <$> uleb
  | 0x24 => pass 8
  | 0x25 => Value.strIndex <$> number 1
  | 0x26 => Value.strIndex <$> number 2
  | 0x27 => Value.strIndex <$> number 3
  | 0x28 => Value.strIndex <$> number 4
  | 0x29 => Value.addressIndex <$> number 1
  | 0x2a => Value.addressIndex <$> number 2
  | 0x2b => Value.addressIndex <$> number 3
  | 0x2c => Value.addressIndex <$> number 4
  | 0x1f01 => Value.addressIndex <$> uleb
  | 0x1f02 => Value.strIndex <$> uleb
  | 0x1f20 => pass encoding.format.wordSize
  | 0x1f21 => pass encoding.format.wordSize
  | _ => throw .unknownForm

def indirectForm : Nat := 0x16

def throughIndirect (encoding : Encoding) (name : Nat) (implicit : Option Int) :
    Nat → Nat → Read Value
  | 0, _ => throw .unexpectedEnd
  | fuel + 1, form => do
    if form = indirectForm then throughIndirect encoding name implicit fuel (← uleb16)
    else directValue encoding name implicit form

def attributeOf (encoding : Encoding) (spec : AttributeSpec) : Read Attribute := do
  let fuel := (← get).rest.length + 1
  return ⟨spec.name, ← throughIndirect encoding spec.name spec.implicit fuel spec.form⟩

end Read

end Symbolizer.Dwarf
