import Symbolizer.Dwarf.Attribute
import Symbolizer.ObjectFile

/-!
The sections that hold debug information, and the strings and addresses they are asked for. A
missing section reads as an empty one, except that without entries there is no debug information.
-/

namespace Symbolizer.Dwarf

structure Sections where
  info : Bytes
  abbreviations : Bytes
  line : Bytes
  str : Bytes
  lineStr : Bytes
  strOffsets : Bytes
  addr : Bytes
  ranges : Bytes
  rnglists : Bytes
  deriving Repr

/-- Nothing when the object has no entries at all. -/
def Sections.ofObject? (object : ObjectFile) : Option Sections :=
  let named (name : String) : Bytes := (object.sectionNamed? name).getD []
  if (named ".debug_info").isEmpty then none
  else some {
    info := named ".debug_info"
    abbreviations := named ".debug_abbrev"
    line := named ".debug_line"
    str := named ".debug_str"
    lineStr := named ".debug_line_str"
    strOffsets := named ".debug_str_offsets"
    addr := named ".debug_addr"
    ranges := named ".debug_ranges"
    rnglists := named ".debug_rnglists"
  }

structure Bases where
  strOffsets : Nat
  addr : Nat
  rnglists : Nat
  deriving DecidableEq, Repr

/-- The place of an indexed element behind a base; the index is scaled modulo 2^64. -/
def slot (base index width : Nat) (data : Bytes) : Except Fault Cursor := do
  let behind ← Cursor.at data base
  Cursor.at behind.rest (index * width % UInt64.size)

def Sections.address (sections : Sections) (bases : Bases) (addressSize index : Nat) :
    Except Fault Nat := do
  let (value, _) ← (Read.number addressSize).run (← slot bases.addr index addressSize sections.addr)
  return value

def Sections.strOffset (sections : Sections) (bases : Bases) (format : Format) (index : Nat) :
    Except Fault Nat := do
  let place ← slot bases.strOffsets index format.wordSize sections.strOffsets
  let (value, _) ← (Read.offset format).run place
  return value

def Sections.stringOf (sections : Sections) (bases : Bases) (format : Format) :
    Value → Except Fault Bytes
  | .text bytes => .ok bytes
  | .strOffset offset => Read.cstring.runAt sections.str offset
  | .lineStrOffset offset => Read.cstring.runAt sections.lineStr offset
  | .strIndex index => do
    Read.cstring.runAt sections.str (← sections.strOffset bases format index)
  | _ => .error .expectedString

def Sections.addressOf? (sections : Sections) (bases : Bases) (addressSize : Nat) :
    Value → Except Fault (Option Nat)
  | .address value => .ok (some value)
  | .addressIndex index => some <$> sections.address bases addressSize index
  | _ => .ok none

end Symbolizer.Dwarf
