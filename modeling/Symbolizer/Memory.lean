import Symbolizer.Bytes
import Symbolizer.Fault

/-!
Pointer-sized reads from memory. A snapshot holds the bytes from a base on; a read succeeds when all
its bytes are there, without wrapping around the top of the address space.
-/

namespace Symbolizer

structure Memory where
  pointerSize : Nat
  read : Address → Except Fault UInt64

structure Snapshot where
  base : Address
  bytes : Bytes
  pointerSize : Nat
  deriving DecidableEq, Repr

namespace Snapshot

def make (base : Address) (bytes : Bytes) (pointerSize : Nat) : Except Fault Snapshot :=
  if 1 ≤ pointerSize ∧ pointerSize ≤ 8 then .ok ⟨base, bytes, pointerSize⟩
  else .error (.invalidArgument ("unsupported pointer size " ++ Text.decimal pointerSize))

def ofWords (base : Address) (words : List UInt64) : Snapshot :=
  ⟨base, words.flatMap fun word => Bytes.ofNat 8 word.toNat, 8⟩

/-- The bytes of the pointer at an address. The places of its ends are words, and a place behind the last
word is none. -/
def pointerBytes? (snapshot : Snapshot) (address : Address) : Option Bytes := do
  guard (snapshot.base ≤ address)
  let start := address.value - snapshot.base.value
  guard (start.toNat + snapshot.pointerSize < UInt64.size)
  let stop := start + UInt64.ofNat snapshot.pointerSize
  snapshot.bytes.between? start.toNat stop.toNat

/-- Bytes that are missing from a word are zero. -/
def wordOf (bytes : Bytes) : UInt64 :=
  UInt64.ofNat (Bytes.littleEndian (bytes ++ List.replicate (8 - bytes.length) 0))

def read (snapshot : Snapshot) (address : Address) : Except Fault UInt64 :=
  match snapshot.pointerBytes? address with
  | some bytes => .ok (wordOf bytes)
  | none => .error (.unreadableMemory address)

def toMemory (snapshot : Snapshot) : Memory :=
  ⟨snapshot.pointerSize, snapshot.read⟩

end Snapshot

end Symbolizer
