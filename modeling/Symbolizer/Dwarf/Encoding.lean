import Symbolizer.Dwarf.Cursor

/-!
The parameters that fix the width of offsets and addresses. The two highest addresses of each width
stand for code that the linker dropped.
-/

namespace Symbolizer.Dwarf

inductive Format where
  | dwarf32
  | dwarf64
  deriving DecidableEq, Repr

def Format.wordSize : Format → Nat
  | .dwarf32 => 4
  | .dwarf64 => 8

structure Encoding where
  format : Format
  version : Nat
  addressSize : Nat
  deriving DecidableEq, Repr

def maxAddress (size : Nat) : Nat :=
  1 <<< (8 * size) - 1

def isTombstone (size : Nat) (address : Nat) : Bool :=
  maxAddress size - 1 ≤ address

def addAddress (size address distance : Nat) : Except Fault Nat :=
  let sum := address + distance
  if sum ≤ maxAddress size then .ok sum else .error .addressOverflow

def wrapAddress (size address distance : Nat) : Nat :=
  (address + distance) % (maxAddress size + 1)

namespace Read

def initialLength : Read (Nat × Format) := do
  let first ← number 4
  if first < 0xfffffff0 then return (first, .dwarf32)
  if first = 0xffffffff then return (← number 8, .dwarf64)
  throw .unknownReservedLength

def offset (format : Format) : Read Nat :=
  number format.wordSize

def addressSize : Read Nat := do
  let size := (← byte).toNat
  if size = 1 ∨ size = 2 ∨ size = 4 ∨ size = 8 then return size
  throw .unsupportedAddressSize

def address (encoding : Encoding) : Read Nat :=
  number encoding.addressSize

end Read

end Symbolizer.Dwarf
