import Symbolizer.Proofs.Text.Utf8

/-!
Places in a text counted in bytes. A place is a boundary exactly when the text can be cut there, and a class of
ASCII characters holds all bytes of a text exactly when it holds all its characters.
-/

namespace Symbolizer.Text.Utf8

variable {cs front rest : List Char} {place : Nat}

theorem encode_cons (c : Char) (cs : List Char) : encode (c :: cs) = String.utf8EncodeChar c ++ encode cs :=
  List.flatMap_cons

theorem size_cons (c : Char) (cs : List Char) : size (c :: cs) = c.utf8Size + size cs := by
  rw [size, encode_cons, List.length_append, String.length_utf8EncodeChar, size]

theorem size_append (front rest : List Char) : size (front ++ rest) = size front + size rest := by
  rw [size, encode, List.flatMap_append, List.length_append]
  rfl

/-! Cuts. -/

theorem from?_append (front rest : List Char) : from? (front ++ rest) (size front) = some rest := by
  induction front with
  | nil => cases rest <;> rfl
  | cons c front ih =>
    have positive := c.utf8Size_pos
    obtain ⟨place, sum⟩ := Nat.exists_eq_add_one.2 (Nat.add_pos_left positive (size front))
    rw [size_cons, List.cons_append, sum, from?, if_pos (by omega), ← sum, Nat.add_sub_cancel_left, ih]

theorem from?_eq_some_iff : from? cs place = some rest ↔ ∃ front, cs = front ++ rest ∧ size front = place := by
  constructor
  · intro cut
    fun_induction from? cs place with
    | case1 cs =>
      cases cut
      exact ⟨[], rfl, rfl⟩
    | case2 => cases cut
    | case3 c cs place fits ih =>
      obtain ⟨front, rfl, measured⟩ := ih cut
      refine ⟨c :: front, rfl, ?_⟩
      rw [size_cons, measured]
      omega
    | case4 => cases cut
  · rintro ⟨front, rfl, rfl⟩
    exact from?_append front rest

theorem placeFromEnd?_eq_some_iff {count : Nat} :
    placeFromEnd? cs count = some place ↔ place + count = size cs := by
  rw [placeFromEnd?, Option.ite_none_right_eq_some, Option.some.injEq]
  omega

theorem isBoundary_nil : isBoundary [] place = true ↔ place = 0 := by
  rw [isBoundary, show encode [] = [] from rfl, List.getElem?_nil]
  exact beq_iff_eq

/-- A place inside the first character is none, and one behind it is judged by the rest of the text. -/
theorem isBoundary_cons {c : Char} :
    isBoundary (c :: cs) place = true ↔
      place = 0 ∨ c.utf8Size ≤ place ∧ isBoundary cs (place - c.utf8Size) = true := by
  have long := String.length_utf8EncodeChar c
  have positive := c.utf8Size_pos
  rw [isBoundary, encode_cons]
  by_cases inside : place < c.utf8Size
  · have beyond : ¬c.utf8Size ≤ place := Nat.not_le.2 inside
    rw [List.getElem?_append_left (by omega), List.getElem?_eq_getElem (by omega)]
    simp only [decide_eq_true_eq, UInt8.isUTF8FirstByte_getElem_utf8EncodeChar, beyond, false_and, or_false]
  · have behind : c.utf8Size ≤ place := Nat.not_lt.1 inside
    have apart : place ≠ 0 := by omega
    rw [List.getElem?_append_right (by omega), long, isBoundary, size_cons]
    simp only [behind, apart, false_or, true_and]
    cases (encode cs)[place - c.utf8Size]? with
    | some byte => rfl
    | none =>
      simp only [beq_iff_eq]
      omega

theorem isBoundary_iff : isBoundary cs place = true ↔ ∃ front rest, cs = front ++ rest ∧ size front = place := by
  induction cs generalizing place with
  | nil =>
    rw [isBoundary_nil]
    constructor
    · rintro rfl
      exact ⟨[], [], rfl, rfl⟩
    · rintro ⟨front, rest, split, rfl⟩
      rw [(List.append_eq_nil_iff.1 split.symm).1]
      rfl
  | cons c cs ih =>
    rw [isBoundary_cons, ih]
    constructor
    · rintro (rfl | ⟨behind, front, rest, rfl, measured⟩)
      · exact ⟨[], c :: cs, rfl, rfl⟩
      · exact ⟨c :: front, rest, rfl, by rw [size_cons, measured]; omega⟩
    · rintro ⟨front, rest, split, rfl⟩
      cases front with
      | nil => exact .inl rfl
      | cons first front =>
        obtain ⟨rfl, rfl⟩ := List.cons.inj split
        refine .inr ⟨?_, front, rest, rfl, ?_⟩ <;> rw [size_cons] <;> omega

/-! Classes of characters. -/

theorem toNat_ofUInt8 (byte : UInt8) : (Char.ofUInt8 byte).toNat = byte.toNat :=
  UInt8.toNat_toUInt32 byte

theorem ofUInt8_ofNat {c : Char} (ascii : c.toNat < 0x80) : Char.ofUInt8 (UInt8.ofNat c.toNat) = c := by
  rw [← Char.toNat_inj, toNat_ofUInt8, UInt8.toNat_ofNat']
  omega

theorem high_of_mem_encodeChar {c : Char} (long : 0x80 ≤ c.toNat) :
    ∀ byte ∈ String.utf8EncodeChar c, 0x80 ≤ byte.toNat := by
  have told : c.val.toNat = c.toNat := rfl
  have high {n : Nat} (set : 0x80 ≤ n % 256) : 0x80 ≤ (UInt8.ofNat n).toNat := by
    rwa [UInt8.toNat_ofNat']
  intro byte member
  rw [String.utf8EncodeChar, told, if_neg (by omega)] at member
  split_ifs at member with two three
  · rcases List.mem_pair.1 member with rfl | rfl <;> exact high (by omega)
  · simp only [List.mem_cons, List.not_mem_nil, or_false] at member
    rcases member with rfl | rfl | rfl <;> exact high (by omega)
  · simp only [List.mem_cons, List.not_mem_nil, or_false] at member
    rcases member with rfl | rfl | rfl | rfl <;> exact high (by omega)

section

variable {isMember : Char → Bool} (ascii : ∀ c, isMember c = true → c.toNat < 0x80)
include ascii

theorem all_encodeChar (c : Char) :
    ((String.utf8EncodeChar c).all fun byte => isMember (Char.ofUInt8 byte)) = isMember c := by
  have told : c.val.toNat = c.toNat := rfl
  by_cases short : c.toNat < 0x80
  · rw [String.utf8EncodeChar, told, if_pos (by omega), List.all_cons, ofUInt8_ofNat short, List.all_nil,
      Bool.and_true]
  · have long := Nat.not_lt.1 short
    have foreign (c : Char) (long : 0x80 ≤ c.toNat) : isMember c = false := by
      rw [← Bool.not_eq_true]
      exact fun member => Nat.not_lt.2 long (ascii c member)
    obtain ⟨byte, first⟩ := List.exists_mem_of_ne_nil _ (String.utf8EncodeChar_ne_nil (c := c))
    rw [foreign c long, List.all_eq_false]
    refine ⟨byte, first, ?_⟩
    rw [foreign _ (toNat_ofUInt8 byte ▸ high_of_mem_encodeChar long byte first)]
    exact Bool.false_ne_true

theorem everyByte_eq_all (cs : List Char) : everyByte isMember cs = cs.all isMember := by
  induction cs with
  | nil => rfl
  | cons c cs ih =>
    rw [everyByte, encode_cons, List.all_append, all_encodeChar ascii, List.all_cons, ← ih]
    rfl

theorem size_eq_length (members : cs.all isMember = true) : size cs = cs.length := by
  induction cs with
  | nil => rfl
  | cons c cs ih =>
    rw [List.all_cons, Bool.and_eq_true] at members
    have single : c.utf8Size = 1 := by
      rw [Char.utf8Size_eq_one_iff, UInt32.le_iff_toNat_le]
      exact Nat.le_of_lt_succ (ascii c members.1)
    rw [size_cons, ih members.2, single, List.length_cons, Nat.add_comm]

end

end Symbolizer.Text.Utf8
