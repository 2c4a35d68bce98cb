import Symbolizer.Proofs.Text.Utf16
import Symbolizer.Proofs.Text.Utf8

/-!
Texts and UTF-16 units, there and back. A text comes back as far as its first NUL. Units come back as far as
the first zero, with a replacement character where a surrogate stands without its partner.
-/

namespace Symbolizer.Text.Utf16

/-- A surrogate without its partner stands at a place: a high one with no low one right behind it, or a low
one with no high one right in front. -/
def isUnpaired (units : List UInt16) (place : Nat) : Bool :=
  (units[place]?.any isHigh && !units[place + 1]?.any isLow) ||
    (units[place]?.any isLow && !(0 < place && units[place - 1]?.any isHigh))

def mended (units : List UInt16) : List UInt16 :=
  units.mapIdx fun place unit => if isUnpaired units place then 0xfffd else unit

variable {unit first second : UInt16} {units rest : List UInt16} {place : Nat}

theorem isLow_of_isHigh (high : isHigh unit = true) : isLow unit = false := by
  rw [Bool.eq_false_iff, ne_eq, isLow_iff]
  have bounds := isHigh_iff.1 high
  omega

theorem isHigh_of_isLow (low : isLow unit = true) : isHigh unit = false := by
  rw [Bool.eq_false_iff, ne_eq, isHigh_iff]
  have bounds := isLow_iff.1 low
  omega

/-! Where surrogates are unpaired, read from the front. -/

theorem isUnpaired_zero (unit : UInt16) (rest : List UInt16) :
    isUnpaired (unit :: rest) 0 = (isHigh unit && !rest.head?.any isLow || isLow unit) := by
  simp [isUnpaired, List.head?_eq_getElem?]

theorem isUnpaired_one (first second : UInt16) (rest : List UInt16) :
    isUnpaired (first :: second :: rest) 1 =
      (isHigh second && !rest.head?.any isLow || isLow second && !isHigh first) := by
  simp [isUnpaired, List.head?_eq_getElem?]

theorem isUnpaired_add_two (unit : UInt16) (rest : List UInt16) (place : Nat) :
    isUnpaired (unit :: rest) (place + 2) = isUnpaired rest (place + 1) := by
  simp [isUnpaired]

/-- A unit matters to the next one only as the high surrogate of a low one. -/
theorem isUnpaired_add_one (apart : isHigh unit = true → rest.head?.any isLow = false) (place : Nat) :
    isUnpaired (unit :: rest) (place + 1) = isUnpaired rest place := by
  cases place with
  | succ place => exact isUnpaired_add_two unit rest place
  | zero =>
    cases rest with
    | nil => rfl
    | cons next rest =>
      rw [isUnpaired_one, isUnpaired_zero]
      cases high : isHigh unit with
      | false => simp
      | true =>
        have next_apart : isLow next = false := by simpa using apart high
        simp [next_apart]

theorem mended_cons (apart : isHigh unit = true → rest.head?.any isLow = false) :
    mended (unit :: rest) = (if isHigh unit || isLow unit then 0xfffd else unit) :: mended rest := by
  have alone : isUnpaired (unit :: rest) 0 = (isHigh unit || isLow unit) := by
    rw [isUnpaired_zero]
    cases high : isHigh unit with
    | false => simp
    | true => simp [apart high]
  simp only [mended, List.mapIdx_cons, alone, isUnpaired_add_one apart]

theorem mended_pair (high : isHigh first = true) (low : isLow second = true) (rest : List UInt16) :
    mended (first :: second :: rest) = first :: second :: mended rest := by
  have first_paired : isUnpaired (first :: second :: rest) 0 = false := by
    rw [isUnpaired_zero]
    simp [low, isLow_of_isHigh high]
  have second_paired : isUnpaired (first :: second :: rest) 1 = false := by
    rw [isUnpaired_one]
    simp [high, isHigh_of_isLow low]
  have later (place : Nat) : isUnpaired (first :: second :: rest) (place + 2) = isUnpaired rest place := by
    rw [isUnpaired_add_two, isUnpaired_add_one]
    simp [isHigh_of_isLow low]
  simp [mended, List.mapIdx_cons, first_paired, second_paired, later]

/-! Units written again after they were read. -/

theorem decode_alone (apart : isHigh unit = true → rest.head?.any isLow = false) :
    decode (unit :: rest) =
      (if isHigh unit || isLow unit then Utf8.replacement else Char.ofNat unit.toNat) :: decode rest := by
  cases rest with
  | nil => simp [decode]
  | cons next rest =>
    cases high : isHigh unit with
    | false => cases low : isLow unit <;> simp [decode, high, low]
    | true =>
      have next_apart : isLow next = false := by simpa using apart high
      simp [decode, high, next_apart]

theorem encode_cons (c : Char) (cs : List Char) : encode (c :: cs) = encodeChar c ++ encode cs :=
  List.flatMap_cons

theorem encodeChar_replacement : encodeChar Utf8.replacement = [0xfffd] := by
  decide

theorem encodeChar_plain (plain : (isHigh unit || isLow unit) = false) :
    encodeChar (Char.ofNat unit.toNat) = [unit] := by
  have small := unit.toNat_lt
  have scalar : unit.toNat.isValidChar := by
    rw [Bool.eq_false_iff, ne_eq, Bool.or_eq_true, isHigh_iff, isLow_iff] at plain
    simp only [Nat.isValidChar]
    omega
  rw [encodeChar, Char.toNat_ofNat, if_pos scalar]
  dsimp only
  rw [if_pos (by omega), UInt16.ofNat_toNat]

theorem encodeChar_pair (high : isHigh first = true) (low : isLow second = true) :
    encodeChar (pair first second) = [first, second] := by
  have high_bounds := isHigh_iff.1 high
  have low_bounds := isLow_iff.1 low
  have scalar : Nat.isValidChar (0x10000 + (first.toNat - 0xd800) * 0x400 + (second.toNat - 0xdc00)) := by
    simp only [Nat.isValidChar]
    omega
  have value : (pair first second).toNat =
      0x10000 + (first.toNat - 0xd800) * 0x400 + (second.toNat - 0xdc00) := by
    rw [pair, Char.toNat_ofNat, if_pos scalar]
  have upper : UInt16.ofNat (0xd800 + ((pair first second).toNat - 0x10000) / 0x400) = first := by
    rw [UInt16.ofNat_eq_iff_mod_eq_toNat]
    omega
  have lower : UInt16.ofNat (0xdc00 + ((pair first second).toNat - 0x10000) % 0x400) = second := by
    rw [UInt16.ofNat_eq_iff_mod_eq_toNat]
    omega
  rw [encodeChar]
  dsimp only
  rw [if_neg (by omega), upper, lower]

theorem encode_decode (units : List UInt16) : encode (decode units) = mended units := by
  -- A pair is read in one step, and every other unit on its own.
  have alone {unit : UInt16} {rest : List UInt16}
      (apart : isHigh unit = true → rest.head?.any isLow = false)
      (ih : encode (decode rest) = mended rest) : encode (decode (unit :: rest)) = mended (unit :: rest) := by
    rw [decode_alone apart, mended_cons apart, encode_cons, ih]
    cases surrogate : isHigh unit || isLow unit with
    | false =>
      rw [if_neg Bool.false_ne_true, if_neg Bool.false_ne_true, encodeChar_plain surrogate]
      rfl
    | true =>
      rw [if_pos rfl, if_pos rfl, encodeChar_replacement]
      rfl
  induction units using decode.induct with
  | case1 => rfl
  | case2 unit => exact alone (fun _ => rfl) rfl
  | case3 first second rest high low ih =>
    rw [decode_pair high low, mended_pair high low, encode_cons, ih, encodeChar_pair high low]
    rfl
  | case4 first second rest high low ih => exact alone (fun _ => by simpa using low) ih
  | case5 first second rest high low ih => exact alone (fun is_high => absurd is_high high) ih
  | case6 first second rest high low ih => exact alone (fun is_high => absurd is_high high) ih

/-! Where reading stops. -/

theorem ne_zero_of_mem_encodeChar {c : Char} (solid : c ≠ '\x00') : ∀ unit ∈ encodeChar c, unit ≠ 0 := by
  have positive := Utf8.toNat_pos solid
  have bound : c.toNat < 0x110000 := by
    have valid : c.toNat < 0xd800 ∨ 0xdfff < c.toNat ∧ c.toNat < 0x110000 := c.valid
    omega
  have nonzero {n : Nat} (above : 0 < n) (below : n < 0x10000) : UInt16.ofNat n ≠ 0 := by
    intro zero
    have value : n % 0x10000 = 0 := congrArg UInt16.toNat zero
    omega
  intro unit member
  rw [encodeChar] at member
  dsimp only at member
  split at member
  next plain =>
    rw [List.mem_singleton.1 member]
    exact nonzero positive plain
  next =>
    rcases List.mem_pair.1 member with rfl | rfl
    · exact nonzero (by omega) (by omega)
    · exact nonzero (by omega) (by omega)

theorem takeWhile_encode (cs : List Char) :
    (encode cs).takeWhile (· != 0) = encode (cs.takeWhile (· != '\x00')) := by
  induction cs with
  | nil => rfl
  | cons c rest ih =>
    by_cases stop : c = '\x00'
    · rw [stop, encode_cons]
      rfl
    · have solid : ∀ unit ∈ encodeChar c, (unit != 0) = true := fun unit member =>
        bne_iff_ne.2 (ne_zero_of_mem_encodeChar stop unit member)
      have kept : (c :: rest).takeWhile (· != '\x00') = c :: rest.takeWhile (· != '\x00') :=
        List.takeWhile_cons_of_pos (bne_iff_ne.2 stop)
      rw [encode_cons, List.takeWhile_append_of_pos solid, ih, kept, encode_cons]

/-! What comes back unchanged. -/

theorem surrogate_of_isUnpaired (unpaired : isUnpaired units place = true) :
    ∃ unit, units[place]? = some unit ∧ (isHigh unit = true ∨ isLow unit = true) := by
  cases held : units[place]? with
  | none => simp [isUnpaired, held] at unpaired
  | some unit =>
    simp only [isUnpaired, held, Option.any_some, Bool.or_eq_true, Bool.and_eq_true] at unpaired
    exact ⟨unit, rfl, unpaired.imp And.left And.left⟩

/-- The replacement character is no surrogate, so mending shows wherever it happens. -/
theorem mended_eq_self_iff (units : List UInt16) :
    mended units = units ↔ ∀ place, isUnpaired units place = false := by
  rw [mended, List.mapIdx_eq_iff]
  constructor
  · intro same place
    by_contra unpaired
    rw [Bool.not_eq_false] at unpaired
    obtain ⟨unit, held, surrogate⟩ := surrogate_of_isUnpaired unpaired
    have told := same place
    rw [held, Option.map_some, if_pos unpaired] at told
    rw [Option.some.inj told] at surrogate
    revert surrogate
    decide
  · intro paired place
    simp [paired place]

theorem length_mended (units : List UInt16) : (mended units).length = units.length :=
  List.length_mapIdx

theorem takeWhile_ne_eq_self_iff {α : Type} [DecidableEq α] (a : α) (l : List α) :
    l.takeWhile (· != a) = l ↔ a ∉ l := by
  rw [List.takeWhile_eq_self_iff]
  constructor
  · intro others member
    simpa using others a member
  · intro missing x member
    exact bne_iff_ne.2 fun same => missing (same ▸ member)

theorem toText_ofText (text : String) :
    (toText (ofText text)).toList = text.toList.takeWhile (· != '\x00') := by
  rw [toText, ofText, String.toList_ofList, takeWhile_encode, decode_encode]

theorem ofText_toText (units : List UInt16) : ofText (toText units) = mended (units.takeWhile (· != 0)) := by
  rw [ofText, toText, String.toList_ofList, encode_decode]

/-- Neither the cut nor the mending goes unnoticed: the one shows in the length, the other in the units. -/
theorem mended_takeWhile_eq_self_iff (units : List UInt16) :
    mended (units.takeWhile (· != 0)) = units ↔ 0 ∉ units ∧ ∀ place, isUnpaired units place = false := by
  constructor
  · intro same
    have long : (units.takeWhile (· != 0)).length = units.length := by
      rw [← length_mended, same]
    have whole := (List.takeWhile_prefix _).eq_of_length long
    rw [whole] at same
    exact ⟨(takeWhile_ne_eq_self_iff 0 units).1 whole, (mended_eq_self_iff units).1 same⟩
  · rintro ⟨solid, paired⟩
    rw [(takeWhile_ne_eq_self_iff 0 units).2 solid, (mended_eq_self_iff units).2 paired]

/-- Texts go to units and back, and units to texts and back. Each comes back cut at the first zero, which is a
NUL in the text, and units come back with every surrogate replaced that has no partner before the cut. -/
theorem transcoding_roundTrips :
    (∀ text : String,
      (toText (ofText text)).toList = text.toList.takeWhile (· != '\x00') ∧
        (toText (ofText text) = text ↔ '\x00' ∉ text.toList)) ∧
    ∀ units : List UInt16,
      ofText (toText units) = mended (units.takeWhile (· != 0)) ∧
        (ofText (toText units) = units ↔ 0 ∉ units ∧ ∀ place, isUnpaired units place = false) := by
  constructor
  · intro text
    refine ⟨toText_ofText text, ?_⟩
    rw [← String.toList_inj, toText_ofText, takeWhile_ne_eq_self_iff]
  · intro units
    refine ⟨ofText_toText units, ?_⟩
    rw [ofText_toText, mended_takeWhile_eq_self_iff]

example : ofText (toText [0x61, 0xdc00, 0xd834, 0xd834, 0xdd1e, 0xd800, 0, 0xdc00]) =
    [0x61, 0xfffd, 0xfffd, 0xd834, 0xdd1e, 0xfffd] := by
  decide

end Symbolizer.Text.Utf16
