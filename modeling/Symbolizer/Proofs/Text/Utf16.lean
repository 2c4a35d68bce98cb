import Mathlib
import Symbolizer.Text.Utf16

/-!
Reading back what is written in UTF-16. A character is one unit that is no surrogate, or a high surrogate
with the low one that belongs to it.
-/

namespace Symbolizer.Text.Utf16

variable {unit high low : UInt16} {n : Nat}

theorem isHigh_iff : isHigh unit = true ↔ 0xd800 ≤ unit.toNat ∧ unit.toNat < 0xdc00 := by
  simp [isHigh]

theorem isLow_iff : isLow unit = true ↔ 0xdc00 ≤ unit.toNat ∧ unit.toNat < 0xe000 := by
  simp [isLow]

theorem decode_single (plain : unit.toNat < 0xd800 ∨ 0xdfff < unit.toNat) (rest : List UInt16) :
    decode (unit :: rest) = Char.ofNat unit.toNat :: decode rest := by
  have not_high : ¬isHigh unit = true := by
    rw [isHigh_iff]
    omega
  have not_low : ¬isLow unit = true := by
    rw [isLow_iff]
    omega
  cases rest <;> simp [decode, not_high, not_low]

theorem decode_pair (first : isHigh high = true) (second : isLow low = true) (rest : List UInt16) :
    decode (high :: low :: rest) = pair high low :: decode rest := by
  simp [decode, first, second]

theorem decode_surrogates (long : 0x10000 ≤ n) (character : n < 0x110000) (rest : List UInt16) :
    decode (UInt16.ofNat (0xd800 + (n - 0x10000) / 0x400) ::
        UInt16.ofNat (0xdc00 + (n - 0x10000) % 0x400) :: rest) = Char.ofNat n :: decode rest := by
  have first : (UInt16.ofNat (0xd800 + (n - 0x10000) / 0x400)).toNat =
      0xd800 + (n - 0x10000) / 0x400 := by
    rw [UInt16.toNat_ofNat']
    omega
  have second : (UInt16.ofNat (0xdc00 + (n - 0x10000) % 0x400)).toNat =
      0xdc00 + (n - 0x10000) % 0x400 := by
    rw [UInt16.toNat_ofNat']
    omega
  rw [decode_pair (isHigh_iff.2 (by omega)) (isLow_iff.2 (by omega)), pair, first, second]
  exact congrArg (Char.ofNat · :: decode rest) (by omega)

theorem decode_encodeChar (c : Char) (rest : List UInt16) :
    decode (encodeChar c ++ rest) = c :: decode rest := by
  have character : c.toNat < 0xd800 ∨ 0xdfff < c.toNat ∧ c.toNat < 0x110000 := c.valid
  have whole : Char.ofNat c.toNat = c := Char.ofNat_toNat c
  rw [encodeChar]
  dsimp only
  by_cases plain : c.toNat < 0x10000
  · have value : (UInt16.ofNat c.toNat).toNat = c.toNat := by
      rw [UInt16.toNat_ofNat']
      omega
    rw [if_pos plain, List.singleton_append, decode_single (by omega), value, whole]
  · rw [if_neg plain]
    exact (decode_surrogates (by omega) (by omega) rest).trans (congrArg (· :: decode rest) whole)

theorem decode_encode (cs : List Char) : decode (encode cs) = cs := by
  induction cs with
  | nil => rfl
  | cons c rest ih =>
    rw [encode, List.flatMap_cons, decode_encodeChar]
    exact congrArg (c :: ·) ih

example : encode ['a', '𝄞'] = [0x61, 0xd834, 0xdd1e] := by decide

end Symbolizer.Text.Utf16
