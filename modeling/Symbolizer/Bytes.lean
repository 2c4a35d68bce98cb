/-!
Byte strings as lists, cut by offset and size, and little-endian numbers of any width.
-/

namespace Symbolizer

abbrev Bytes := List UInt8

namespace Bytes

def from? (data : Bytes) (offset : Nat) : Option Bytes :=
  if offset ≤ data.length then some (data.drop offset) else none

def slice? (data : Bytes) (offset size : Nat) : Option Bytes :=
  if offset + size ≤ data.length then some ((data.drop offset).take size) else none

def between? (data : Bytes) (start stop : Nat) : Option Bytes :=
  if start ≤ stop ∧ stop ≤ data.length then some ((data.drop start).take (stop - start)) else none

/-- The number whose least significant byte comes first. -/
def littleEndian : Bytes → Nat
  | [] => 0
  | byte :: rest => byte.toNat + 256 * littleEndian rest

/-- The `width` least significant bytes of a number, least significant first. -/
def ofNat : Nat → Nat → Bytes
  | 0, _ => []
  | width + 1, n => UInt8.ofNat (n % 256) :: ofNat width (n / 256)

def number? (data : Bytes) (offset width : Nat) : Option Nat :=
  (data.slice? offset width).map littleEndian

def cstring? (data : Bytes) : Option Bytes :=
  if 0 ∈ data then some (data.takeWhile (· != 0)) else none

end Bytes

end Symbolizer
