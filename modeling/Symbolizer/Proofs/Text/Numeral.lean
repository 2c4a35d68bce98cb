import Mathlib
import Symbolizer.Text.Blank
import Symbolizer.Text.Numeral

/-!
Reading numbers. A text of digits denotes the number that positional notation gives it, with zeros in front
or without, in letters of either case. What is read is the number that the text denotes, perhaps behind a plus
sign, and a number is read exactly when it fits.
-/

namespace Symbolizer.Text

/-- The characters are digits of the radix, the most significant one first, and together mean the number. -/
structure Denotes (radix n : Nat) (digits : List Char) : Prop where
  nonempty : digits ≠ []
  values : ∃ values : List Nat, digits.map (digitIn radix) = values.map some ∧
    n = Nat.ofDigits radix values.reverse

inductive Signed (digits : List Char) : List Char → Prop where
  | plain : Signed digits digits
  | plus : Signed digits ('+' :: digits)

variable {radix bits n digit value : Nat} {digits text : List Char} {c : Char}

theorem digitIn_eq_some_iff : digitIn radix c = some digit ↔ digitValue c = some digit ∧ digit < radix := by
  simp [digitIn, Option.filter_eq_some_iff]

theorem toNat_of_digitValue (found : digitValue c = some digit) :
    0x30 ≤ c.toNat ∧ c.toNat ≤ 0x39 ∨ 0x61 ≤ c.toNat ∧ c.toNat ≤ 0x7a ∨
      0x41 ≤ c.toNat ∧ c.toNat ≤ 0x5a := by
  rw [digitValue] at found
  split at found
  next decimal => exact .inl decimal
  next =>
    split at found
    next lower => exact .inr (.inl lower)
    next =>
      split at found
      next upper => exact .inr (.inr upper)
      next => cases found

theorem plain_of_digitIn (found : digitIn radix c = some digit) :
    isBlank c = false ∧ c ≠ '-' ∧ c ≠ '+' := by
  have range := toNat_of_digitValue (digitIn_eq_some_iff.1 found).1
  have dash : '-'.toNat = 0x2d := rfl
  have sign : '+'.toNat = 0x2b := rfl
  refine ⟨?_, ?_, ?_⟩
  · simp only [isBlank, Bool.or_eq_false_iff, Bool.and_eq_false_iff, decide_eq_false_iff_not,
      beq_eq_false_iff_ne]
    omega
  · rintro rfl
    omega
  · rintro rfl
    omega

theorem Denotes.isSome (denotes : Denotes radix n digits) (member : c ∈ digits) :
    (digitIn radix c).isSome := by
  obtain ⟨_, values, spelled, _⟩ := denotes
  have digit : digitIn radix c ∈ values.map some := spelled ▸ List.mem_map_of_mem member
  obtain ⟨value, _, found⟩ := List.mem_map.1 digit
  rw [← found]
  rfl

theorem Denotes.plain (denotes : Denotes radix n digits) (member : c ∈ digits) :
    isBlank c = false ∧ c ≠ '-' ∧ c ≠ '+' := by
  obtain ⟨_, found⟩ := Option.isSome_iff_exists.1 (denotes.isSome member)
  exact plain_of_digitIn found

/-! What is written in the usual way denotes the number it was written for. -/

theorem denotes_single (found : digitIn radix c = some digit) : Denotes radix digit [c] :=
  ⟨List.cons_ne_nil c [], [digit], congrArg (fun value => [value]) found, by simp⟩

theorem Denotes.snoc (denotes : Denotes radix n digits) (found : digitIn radix c = some digit) :
    Denotes radix (n * radix + digit) (digits ++ [c]) := by
  obtain ⟨nonempty, values, spelled, rfl⟩ := denotes
  refine ⟨List.append_ne_nil_of_left_ne_nil nonempty [c], values ++ [digit], ?_, ?_⟩
  · rw [List.map_append, List.map_append, spelled, List.map_singleton, List.map_singleton, found]
  · rw [List.reverse_append, List.reverse_singleton, List.singleton_append, Nat.ofDigits_cons,
      Nat.mul_comm, Nat.add_comm]

theorem digitIn_digitChar (small : radix ≤ 16) (below : digit < radix) :
    digitIn radix (Nat.digitChar digit) = some digit := by
  have value : ∀ d < 16, digitValue (Nat.digitChar d) = some d := by decide
  exact digitIn_eq_some_iff.2 ⟨value digit (Nat.lt_of_lt_of_le below small), below⟩

theorem denotes_toDigits (several : 1 < radix) (small : radix ≤ 16) (n : Nat) :
    Denotes radix n (Nat.toDigits radix n) := by
  induction n using Nat.strong_induction_on with
  | _ n ih =>
    by_cases single : n < radix
    · rw [Nat.toDigits_of_lt_base single]
      exact denotes_single (digitIn_digitChar small single)
    · have reached : radix ≤ n := Nat.le_of_not_lt single
      have positive : 0 < n := by omega
      have front := ih (n / radix) (Nat.div_lt_self positive several)
      have below : n % radix < radix := Nat.mod_lt n (by omega)
      have whole := front.snoc (digitIn_digitChar small below)
      rwa [Nat.div_add_mod', ← Nat.toDigits_of_base_le several reached] at whole

theorem Denotes.zeros (denotes : Denotes radix n digits) (several : 0 < radix) (count : Nat) :
    Denotes radix n (List.replicate count '0' ++ digits) := by
  obtain ⟨nonempty, values, spelled, rfl⟩ := denotes
  have zero : digitIn radix '0' = some 0 := digitIn_eq_some_iff.2 ⟨rfl, several⟩
  refine ⟨List.append_ne_nil_of_right_ne_nil _ nonempty, List.replicate count 0 ++ values, ?_, ?_⟩
  · rw [List.map_append, List.map_append, spelled, List.map_replicate, List.map_replicate, zero]
  · rw [List.reverse_append, List.reverse_replicate, Nat.ofDigits_append_replicate_zero]

theorem digitValue_toLower (c : Char) : digitValue c.toLower = digitValue c := by
  by_cases low : c.toNat ≤ 'Z'.toNat
  · have same : ∀ code ≤ 'Z'.toNat,
        digitValue (Char.ofNat code).toLower = digitValue (Char.ofNat code) := by decide
    have here := same c.toNat low
    rwa [Char.ofNat_toNat] at here
  · have kept : c.toLower = c := dif_neg fun upper => low upper.2
    rw [kept]

theorem digitIn_eq_some_iff_digitChar (small : radix ≤ 16) :
    digitIn radix c = some digit ↔ digit < radix ∧ c.toLower = Nat.digitChar digit := by
  rw [digitIn_eq_some_iff, and_comm]
  refine and_congr_right fun below => ⟨fun found => ?_, fun same => ?_⟩
  · have lower : ∀ code ≤ 'z'.toNat, (digitValue (Char.ofNat code)).all
        (fun digit => 16 ≤ digit || (Char.ofNat code).toLower == Nat.digitChar digit) = true := by decide
    have range := toNat_of_digitValue found
    have here := lower c.toNat (by change c.toNat ≤ 0x7a; omega)
    rw [Char.ofNat_toNat, found] at here
    have least : ¬16 ≤ digit := by omega
    simpa [least] using here
  · rw [← digitValue_toLower, same]
    exact (digitIn_eq_some_iff.1 (digitIn_digitChar small below)).1

theorem denotes_of_lower (denotes : Denotes radix n (digits.map Char.toLower)) : Denotes radix n digits := by
  obtain ⟨nonempty, values, spelled, same⟩ := denotes
  have lower : digitIn radix ∘ Char.toLower = digitIn radix := by
    funext c
    rw [Function.comp_apply, digitIn, digitIn, digitValue_toLower]
  rw [List.map_map, lower] at spelled
  exact ⟨fun empty => nonempty (by rw [empty, List.map_nil]), values, spelled, same⟩

theorem denotes_concat (denotes : Denotes radix n (digits ++ [c])) :
    ∃ digit, digitIn radix c = some digit ∧
      (digits = [] ∧ n = digit ∨ ∃ front, Denotes radix front digits ∧ n = front * radix + digit) := by
  obtain ⟨_, values, spelled, rfl⟩ := denotes
  rw [List.map_append, List.map_singleton] at spelled
  obtain ⟨values, last, rfl, front, single⟩ := List.map_eq_append_iff.1 spelled.symm
  obtain ⟨digit, rfl, found⟩ := List.map_eq_singleton_iff.1 single
  have value : Nat.ofDigits radix (values ++ [digit]).reverse =
      Nat.ofDigits radix values.reverse * radix + digit := by
    rw [List.reverse_append, List.reverse_singleton, List.singleton_append, Nat.ofDigits_cons,
      Nat.mul_comm, Nat.add_comm]
  refine ⟨digit, found.symm, ?_⟩
  by_cases empty : digits = []
  · subst empty
    obtain rfl : values = [] := by simpa using front
    exact .inl ⟨rfl, by simp⟩
  · exact .inr ⟨_, ⟨empty, values, front.symm, rfl⟩, value⟩

/-- A number is denoted by its own digits in either case, behind any number of zeros, and by nothing else. -/
theorem denotes_iff_toDigits (several : 1 < radix) (small : radix ≤ 16) :
    Denotes radix n digits ↔
      ∃ zeros, digits.map Char.toLower = List.replicate zeros '0' ++ Nat.toDigits radix n := by
  constructor
  · intro denotes
    induction digits using List.reverseRecOn generalizing n with
    | nil => exact absurd rfl denotes.nonempty
    | append_singleton digits c ih =>
      obtain ⟨digit, found, last⟩ := denotes_concat denotes
      obtain ⟨below, same⟩ := (digitIn_eq_some_iff_digitChar small).1 found
      rcases last with ⟨rfl, rfl⟩ | ⟨front, denoted, rfl⟩
      · exact ⟨0, by simp [same, Nat.toDigits_of_lt_base below]⟩
      · obtain ⟨zeros, spelled⟩ := ih denoted
        rw [List.map_append, List.map_singleton, spelled, same]
        by_cases zero : front = 0
        · subst zero
          exact ⟨zeros + 1, by simp [Nat.toDigits_of_lt_base below, List.replicate_succ']⟩
        · have reached : radix ≤ front * radix + digit := by
            have scaled := Nat.le_mul_of_pos_left radix (Nat.pos_of_ne_zero zero)
            omega
          have quotient : (front * radix + digit) / radix = front := by
            rw [Nat.mul_comm, Nat.mul_add_div (by omega), Nat.div_eq_of_lt below, Nat.add_zero]
          have remainder : (front * radix + digit) % radix = digit := by
            rw [Nat.mul_add_mod', Nat.mod_eq_of_lt below]
          exact ⟨zeros, by rw [Nat.toDigits_of_base_le several reached, quotient, remainder,
            List.append_assoc]⟩
  · rintro ⟨zeros, spelled⟩
    apply denotes_of_lower
    rw [spelled]
    exact (denotes_toDigits several small n).zeros (by omega) zeros

/-! Reading. -/

theorem ofDigits_horner (radix value digit : Nat) (values : List Nat) :
    value * radix ^ (digit :: values).length + Nat.ofDigits radix (digit :: values).reverse =
      (value * radix + digit) * radix ^ values.length + Nat.ofDigits radix values.reverse := by
  rw [List.length_cons, List.reverse_cons, Nat.ofDigits_append, List.length_reverse,
    Nat.ofDigits_singleton]
  ring

theorem readDigits_of_values (value : Nat) {values : List Nat}
    (spelled : digits.map (digitIn radix) = values.map some)
    (fits : value * radix ^ values.length + Nat.ofDigits radix values.reverse < 2 ^ bits) :
    readDigits radix bits value digits =
      .ok (value * radix ^ values.length + Nat.ofDigits radix values.reverse) := by
  induction digits generalizing value values with
  | nil =>
    obtain rfl : values = [] := by simpa using spelled.symm
    simp [readDigits]
  | cons c rest ih =>
    cases values with
    | nil => cases spelled
    | cons digit values =>
      obtain ⟨first, others⟩ := List.cons.inj spelled
      have positive : 0 < radix := Nat.zero_lt_of_lt (digitIn_eq_some_iff.1 first).2
      rw [ofDigits_horner] at fits ⊢
      have small : value * radix + digit < 1 <<< bits := by
        have scaled := Nat.le_mul_of_pos_right (value * radix + digit)
          (Nat.pow_pos positive (n := values.length))
        rw [Nat.one_shiftLeft]
        omega
      rw [readDigits, first]
      exact (if_pos small).trans (ih _ others fits)

theorem readDigits_of_large {values : List Nat} (spelled : digits.map (digitIn radix) = values.map some)
    (small : value < 2 ^ bits)
    (large : 2 ^ bits ≤ value * radix ^ values.length + Nat.ofDigits radix values.reverse) :
    readDigits radix bits value digits = .error .tooLarge := by
  induction digits generalizing value values with
  | nil =>
    obtain rfl : values = [] := by simpa using spelled.symm
    simp only [List.length_nil, pow_zero, Nat.mul_one, List.reverse_nil, Nat.ofDigits_nil,
      Nat.add_zero] at large
    omega
  | cons c rest ih =>
    cases values with
    | nil => cases spelled
    | cons digit values =>
      obtain ⟨first, others⟩ := List.cons.inj spelled
      rw [ofDigits_horner] at large
      rw [readDigits, first]
      by_cases fits : value * radix + digit < 1 <<< bits
      · exact (if_pos fits).trans (ih others (by rwa [Nat.one_shiftLeft] at fits) large)
      · exact if_neg fits

theorem values_of_readDigits (read : readDigits radix bits value digits = .ok n) (small : value < 2 ^ bits) :
    n < 2 ^ bits ∧ ∃ values : List Nat, digits.map (digitIn radix) = values.map some ∧
      n = value * radix ^ values.length + Nat.ofDigits radix values.reverse := by
  induction digits generalizing value with
  | nil =>
    cases read
    exact ⟨small, [], rfl, by simp⟩
  | cons c rest ih =>
    rw [readDigits] at read
    cases found : digitIn radix c with
    | none =>
      rw [found] at read
      cases read
    | some digit =>
      rw [found] at read
      by_cases fits : value * radix + digit < 1 <<< bits
      · rw [Nat.one_shiftLeft] at fits
        have rest_read : readDigits radix bits (value * radix + digit) rest = .ok n := by
          simpa [Nat.one_shiftLeft, fits] using read
        obtain ⟨bound, values, spelled, same⟩ := ih rest_read fits
        refine ⟨bound, digit :: values, by rw [List.map_cons, List.map_cons, found, spelled], ?_⟩
        rw [ofDigits_horner, same]
      · simp [fits] at read

theorem denotes_of_readDigits (read : readDigits radix bits 0 digits = .ok n) (nonempty : digits ≠ []) :
    n < 2 ^ bits ∧ Denotes radix n digits := by
  obtain ⟨bound, values, spelled, same⟩ := values_of_readDigits read (Nat.two_pow_pos bits)
  exact ⟨bound, nonempty, values, spelled, by rw [same, Nat.zero_mul, Nat.zero_add]⟩

theorem readUnsigned_of_signed (signed : Signed digits text) (nonempty : digits ≠ [])
    (unsigned : ∀ c ∈ digits, c ≠ '+') : readUnsigned radix bits text = readDigits radix bits 0 digits := by
  cases signed with
  | plain =>
    rw [readUnsigned]
    · exact nonempty
    · rintro rfl
      exact unsigned '+' (List.mem_singleton_self _) rfl
    · rintro rest rfl
      exact unsigned '+' List.mem_cons_self rfl
  | plus =>
    rw [readUnsigned]
    exact fun alone => nonempty alone

/-- A number is read exactly when the text denotes it and it fits. -/
theorem readUnsigned_eq_ok_iff :
    readUnsigned radix bits text = .ok n ↔
      n < 2 ^ bits ∧ ∃ digits, Signed digits text ∧ Denotes radix n digits := by
  constructor
  · intro read
    unfold readUnsigned at read
    split at read
    next => cases read
    next => cases read
    next digits alone =>
      obtain ⟨fits, denotes⟩ := denotes_of_readDigits read alone
      exact ⟨fits, digits, .plus, denotes⟩
    next _ nonempty _ _ =>
      obtain ⟨fits, denotes⟩ := denotes_of_readDigits read nonempty
      exact ⟨fits, text, .plain, denotes⟩
  · rintro ⟨fits, digits, signed, denotes⟩
    have unsigned (c : Char) (member : c ∈ digits) : c ≠ '+' := (denotes.plain member).2.2
    rw [readUnsigned_of_signed signed denotes.nonempty unsigned]
    obtain ⟨_, values, spelled, rfl⟩ := denotes
    have read := readDigits_of_values 0 spelled (by simpa using fits)
    rwa [Nat.zero_mul, Nat.zero_add] at read

theorem readUnsigned_of_denotes (denotes : Denotes radix n digits) (fits : n < 2 ^ bits) :
    readUnsigned radix bits digits = .ok n :=
  readUnsigned_eq_ok_iff.2 ⟨fits, digits, .plain, denotes⟩

theorem readUnsigned_of_large (signed : Signed digits text) (denotes : Denotes radix n digits)
    (large : 2 ^ bits ≤ n) : readUnsigned radix bits text = .error .tooLarge := by
  have unsigned (c : Char) (member : c ∈ digits) : c ≠ '+' := (denotes.plain member).2.2
  rw [readUnsigned_of_signed signed denotes.nonempty unsigned]
  obtain ⟨_, values, spelled, rfl⟩ := denotes
  exact readDigits_of_large spelled (Nat.two_pow_pos bits) (by simpa using large)

end Symbolizer.Text
