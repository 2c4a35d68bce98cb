import Symbolizer.Text.Numeral

/-!
Instruction addresses. An address is a 64-bit word; moving one by a signed distance wraps, so a
distance and its negation cancel. Address zero marks a row that continues an inline chain.
-/

namespace Symbolizer

structure Address where
  value : UInt64
  deriving DecidableEq, Repr

namespace Address

def zero : Address := ⟨0⟩

def ofNat (n : Nat) : Address := ⟨UInt64.ofNat n⟩

def isZero (a : Address) : Bool :=
  a.value == 0

def offsetBy (a : Address) (delta : Int64) : Address :=
  ⟨a.value + delta.toUInt64⟩

/-- One byte back from a return address, into the call; zero stays zero. -/
def callSite (a : Address) : Address :=
  if a.isZero then a else ⟨a.value - 1⟩

def display (a : Address) : String :=
  "0x" ++ Text.zeroPadded 16 (Text.hexDigits a.value.toNat)

def lowerHex (a : Address) : String :=
  Text.hex a.value.toNat

def upperHex (a : Address) : String :=
  Text.hexUpper a.value.toNat

def paddedHex (a : Address) : String :=
  Text.zeroPadded 8 (Text.hexDigits a.value.toNat)

end Address

instance : LT Address := ⟨fun a b => a.value < b.value⟩
instance : LE Address := ⟨fun a b => a.value ≤ b.value⟩

instance (a b : Address) : Decidable (a < b) :=
  inferInstanceAs (Decidable (a.value < b.value))

instance (a b : Address) : Decidable (a ≤ b) :=
  inferInstanceAs (Decidable (a.value ≤ b.value))

end Symbolizer
