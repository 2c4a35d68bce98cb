import Mathlib
import Symbolizer.Text.Utf8

/-!
Reading back what is written in UTF-8. The bytes of a character start with one that tells how many follow,
and the bounds on the second one let through exactly the characters that need no fewer bytes, are no
surrogates and lie within the range of characters.
-/

namespace Symbolizer.Text.Utf8

variable {byte : UInt8} {bits low high : Nat}

/-! What the first byte of a longer character tells. -/

theorem lead_two (above : 0xc2 ≤ byte.toNat) (below : byte.toNat ≤ 0xdf) :
    lead byte = .start ⟨byte.toNat - 0xc0, 1, 0x80, 0xbf⟩ := by
  have long : ¬byte.toNat < 0x80 := by omega
  simp [lead, long, above, below]

theorem lead_three (above : 0xe0 ≤ byte.toNat) (below : byte.toNat ≤ 0xef) :
    lead byte = .start ⟨byte.toNat - 0xe0, 2, if byte.toNat = 0xe0 then 0xa0 else 0x80,
      if byte.toNat = 0xed then 0x9f else 0xbf⟩ := by
  have long : ¬byte.toNat < 0x80 := by omega
  have longer : ¬byte.toNat ≤ 0xdf := by omega
  by_cases first : byte.toNat = 0xe0
  · simp [lead, first]
  · by_cases surrogates : byte.toNat = 0xed
    · simp [lead, surrogates]
    · have inner : 0xe1 ≤ byte.toNat := by omega
      simp [lead, long, longer, first, surrogates, inner, below]

theorem lead_four (above : 0xf0 ≤ byte.toNat) (below : byte.toNat ≤ 0xf4) :
    lead byte = .start ⟨byte.toNat - 0xf0, 3, if byte.toNat = 0xf0 then 0x90 else 0x80,
      if byte.toNat = 0xf4 then 0x8f else 0xbf⟩ := by
  have long : ¬byte.toNat < 0x80 := by omega
  have longer : ¬byte.toNat ≤ 0xdf := by omega
  have longest : ¬byte.toNat ≤ 0xef := by omega
  by_cases first : byte.toNat = 0xf0
  · simp [lead, first]
  · by_cases final : byte.toNat = 0xf4
    · simp [lead, final]
    · have inner : 0xf1 ≤ byte.toNat ∧ byte.toNat ≤ 0xf3 := by omega
      have apart : byte.toNat ≠ 0xe0 ∧ byte.toNat ≠ 0xed := by omega
      simp [lead, long, longer, longest, first, final, inner, apart]

/-! The bytes that follow. -/

theorem accepts_of (above : low ≤ byte.toNat) (below : byte.toNat ≤ high) (owed : Nat) :
    Pending.accepts ⟨bits, owed, low, high⟩ byte = true := by
  simp only [Pending.accepts, decide_eq_true above, decide_eq_true below, Bool.and_self]

theorem decodeTail_last (above : low ≤ byte.toNat) (below : byte.toNat ≤ high) (rest : List UInt8) :
    decodeTail ⟨bits, 1, low, high⟩ (byte :: rest) =
      Char.ofNat (bits * 64 + (byte.toNat - 0x80)) :: decode rest := by
  rw [decodeTail, if_pos (accepts_of above below 1)]
  exact if_pos rfl

theorem decodeTail_more {owed : Nat} (above : low ≤ byte.toNat) (below : byte.toNat ≤ high)
    (rest : List UInt8) :
    decodeTail ⟨bits, owed + 2, low, high⟩ (byte :: rest) =
      decodeTail ⟨bits * 64 + (byte.toNat - 0x80), owed + 1, 0x80, 0xbf⟩ rest := by
  rw [decodeTail, if_pos (accepts_of above below (owed + 2))]
  exact if_neg (Nat.succ_ne_zero owed)

theorem toNat_continuation (n : Nat) : (UInt8.ofNat (n % 64 + 128)).toNat = n % 64 + 128 := by
  rw [UInt8.toNat_ofNat']
  omega

/-! Characters by the number of their bytes. -/

variable {n : Nat}

theorem decode_one (short : n ≤ 0x7f) (rest : List UInt8) :
    decode (UInt8.ofNat n :: rest) = Char.ofNat n :: decode rest := by
  have value : (UInt8.ofNat n).toNat = n := by
    rw [UInt8.toNat_ofNat']
    omega
  have whole : lead (UInt8.ofNat n) = .whole (Char.ofNat n) := by
    rw [lead, value]
    exact if_pos (by omega)
  rw [decode, whole]

theorem decode_two (long : ¬n ≤ 0x7f) (short : n ≤ 0x7ff) (rest : List UInt8) :
    decode (UInt8.ofNat (n / 64 % 32 + 192) :: UInt8.ofNat (n % 64 + 128) :: rest) =
      Char.ofNat n :: decode rest := by
  have first : (UInt8.ofNat (n / 64 % 32 + 192)).toNat = n / 64 + 192 := by
    rw [UInt8.toNat_ofNat']
    omega
  have second := toNat_continuation n
  rw [decode, lead_two (by omega) (by omega)]
  dsimp only
  rw [decodeTail_last (by omega) (by omega), first, second]
  exact congrArg (Char.ofNat · :: decode rest) (by omega)

theorem decode_three (long : ¬n ≤ 0x7ff) (short : n ≤ 0xffff) (character : n < 0xd800 ∨ 0xdfff < n)
    (rest : List UInt8) :
    decode (UInt8.ofNat (n / 4096 % 16 + 224) :: UInt8.ofNat (n / 64 % 64 + 128) ::
        UInt8.ofNat (n % 64 + 128) :: rest) = Char.ofNat n :: decode rest := by
  have first : (UInt8.ofNat (n / 4096 % 16 + 224)).toNat = n / 4096 + 224 := by
    rw [UInt8.toNat_ofNat']
    omega
  have second := toNat_continuation (n / 64)
  have third := toNat_continuation n
  rw [decode, lead_three (by omega) (by omega)]
  dsimp only
  -- The bounds on the second byte are those of `long` and of `character`.
  rw [decodeTail_more (by split <;> omega) (by split <;> omega), decodeTail_last (by omega) (by omega),
    first, second, third]
  exact congrArg (Char.ofNat · :: decode rest) (by omega)

theorem decode_four (long : ¬n ≤ 0xffff) (character : n < 0x110000) (rest : List UInt8) :
    decode (UInt8.ofNat (n / 262144 % 8 + 240) :: UInt8.ofNat (n / 4096 % 64 + 128) ::
        UInt8.ofNat (n / 64 % 64 + 128) :: UInt8.ofNat (n % 64 + 128) :: rest) =
      Char.ofNat n :: decode rest := by
  have first : (UInt8.ofNat (n / 262144 % 8 + 240)).toNat = n / 262144 + 240 := by
    rw [UInt8.toNat_ofNat']
    omega
  have second := toNat_continuation (n / 4096)
  have third := toNat_continuation (n / 64)
  have fourth := toNat_continuation n
  rw [decode, lead_four (by omega) (by omega)]
  dsimp only
  rw [decodeTail_more (by split <;> omega) (by split <;> omega),
    decodeTail_more (by omega) (by omega), decodeTail_last (by omega) (by omega),
    first, second, third, fourth]
  exact congrArg (Char.ofNat · :: decode rest) (by omega)

theorem decode_encodeChar (c : Char) (rest : List UInt8) :
    decode (String.utf8EncodeChar c ++ rest) = c :: decode rest := by
  have told : c.val.toNat = c.toNat := rfl
  have character : c.toNat < 0xd800 ∨ 0xdfff < c.toNat ∧ c.toNat < 0x110000 := c.valid
  have whole : Char.ofNat c.toNat = c := Char.ofNat_toNat c
  rw [String.utf8EncodeChar, told]
  by_cases one : c.toNat ≤ 0x7f
  · rw [if_pos one, List.singleton_append, decode_one one, whole]
  by_cases two : c.toNat ≤ 0x7ff
  · rw [if_neg one, if_pos two, List.cons_append, List.singleton_append, decode_two one two, whole]
  by_cases three : c.toNat ≤ 0xffff
  · rw [if_neg one, if_neg two, if_pos three]
    have scalar := character.imp_right And.left
    exact (decode_three two three scalar rest).trans (congrArg (· :: decode rest) whole)
  · rw [if_neg one, if_neg two, if_neg three]
    have within : c.toNat < 0x110000 := by omega
    exact (decode_four three within rest).trans (congrArg (· :: decode rest) whole)

theorem decode_encode (cs : List Char) : decode (encode cs) = cs := by
  induction cs with
  | nil => rfl
  | cons c rest ih =>
    rw [encode, List.flatMap_cons, decode_encodeChar]
    exact congrArg (c :: ·) ih

/-! Only NUL is written with a zero byte. -/

theorem toNat_pos {c : Char} (solid : c ≠ '\x00') : 0 < c.toNat := by
  rw [Nat.pos_iff_ne_zero]
  intro zero
  exact solid (Char.toNat_inj.1 zero)

theorem ne_zero_of_mem_encodeChar {c : Char} (solid : c ≠ '\x00') :
    ∀ byte ∈ String.utf8EncodeChar c, byte ≠ 0 := by
  have told : c.val.toNat = c.toNat := rfl
  have positive := toNat_pos solid
  have nonzero {n : Nat} (above : n % 256 ≠ 0) : UInt8.ofNat n ≠ 0 := fun zero =>
    above (congrArg UInt8.toNat zero)
  intro byte member
  rw [String.utf8EncodeChar, told] at member
  -- Every byte of a longer character has its highest bit set.
  split_ifs at member with one two three
  · rw [List.mem_singleton.1 member]
    exact nonzero (by omega)
  · rcases List.mem_pair.1 member with rfl | rfl <;> exact nonzero (by omega)
  · simp only [List.mem_cons, List.not_mem_nil, or_false] at member
    rcases member with rfl | rfl | rfl <;> exact nonzero (by omega)
  · simp only [List.mem_cons, List.not_mem_nil, or_false] at member
    rcases member with rfl | rfl | rfl | rfl <;> exact nonzero (by omega)

end Symbolizer.Text.Utf8
