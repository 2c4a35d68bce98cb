import Symbolizer.Address
import Symbolizer.AddressText
import Symbolizer.Proofs.Text.Numeral
import Symbolizer.Proofs.Text.Words

/-!
Addresses as texts. A text is read as an address exactly when it renders its number: the number's own digits
in hexadecimal behind a mark or in decimal without one, in either case, behind any number of zeros and perhaps
a plus sign, with underscores anywhere among them and white space around it all. A number that does not fit is
refused, and so is a text without a digit.
-/

namespace Symbolizer.AddressText

open Text (Blank Denotes IsWord NumeralError Signed digitIn isBlank readUnsigned trim)

inductive Mark : List Char → Nat → Prop where
  | hexadecimal {letter : Char} (either : letter = 'x' ∨ letter = 'X') : Mark ['0', letter] 16
  | decimal : Mark [] 10

inductive Renders (n : Nat) : List Char → Prop where
  | text {before mark body digits after : List Char} {radix zeros : Nat} (clear : Blank before)
      (marked : Mark mark radix) (signed : Signed digits (body.filter (· != '_')))
      (spelled : digits.map Char.toLower = List.replicate zeros '0' ++ Nat.toDigits radix n)
      (clear_too : Blank after) : Renders n (before ++ (mark ++ body) ++ after)

variable {n radix : Nat} {mark body digits : List Char} {text : String} {value : UInt64}

theorem Mark.several (marked : Mark mark radix) : 1 < radix ∧ radix ≤ 16 := by
  cases marked <;> decide

theorem Mark.solid (marked : Mark mark radix) : ∀ c ∈ mark, isBlank c = false := by
  cases marked with
  | hexadecimal either => rcases either with rfl | rfl <;> simp [isBlank]
  | decimal =>
    intro c inside
    cases inside

theorem exists_mark (cs : List Char) :
    ∃ mark radix body, Mark mark radix ∧ cs = mark ++ body ∧
      read cs = readUnsigned radix 64 (body.filter (· != '_')) := by
  unfold read
  split
  next digits => exact ⟨_, _, digits, .hexadecimal (.inl rfl), rfl, rfl⟩
  next digits => exact ⟨_, _, digits, .hexadecimal (.inr rfl), rfl, rfl⟩
  next => exact ⟨_, _, cs, .decimal, rfl, rfl⟩

theorem mem_of_signed {c : Char} (signed : Signed digits (body.filter (· != '_'))) (member : c ∈ body) :
    c = '_' ∨ c = '+' ∨ c ∈ digits := by
  by_cases underscore : c = '_'
  · exact .inl underscore
  · have kept : c ∈ body.filter (· != '_') := List.mem_filter.2 ⟨member, by simpa using underscore⟩
    generalize body.filter (· != '_') = signed_digits at signed kept
    cases signed with
    | plain => exact .inr (.inr kept)
    | plus => exact .inr (List.mem_cons.1 kept)

theorem isWord_of_signed (marked : Mark mark radix) (signed : Signed digits (body.filter (· != '_')))
    (denotes : Denotes radix n digits) : IsWord (mark ++ body) := by
  constructor
  · intro empty
    obtain ⟨-, rfl⟩ := List.append_eq_nil_iff.1 empty
    have nothing : Signed digits [] := signed
    cases nothing
    exact denotes.nonempty rfl
  · intro c member
    rcases List.mem_append.1 member with inside | inside
    · exact marked.solid c inside
    · rcases mem_of_signed signed inside with rfl | rfl | digit
      · decide
      · decide
      · exact (denotes.plain digit).1

/-- Behind its mark a number is read in the radix of the mark. No number in decimal starts like a mark. -/
theorem read_of_signed (marked : Mark mark radix) (signed : Signed digits (body.filter (· != '_')))
    (denotes : Denotes radix n digits) :
    read (mark ++ body) = readUnsigned radix 64 (body.filter (· != '_')) := by
  cases marked with
  | hexadecimal either => rcases either with rfl | rfl <;> rfl
  | decimal =>
    have decimal (c : Char) (member : c ∈ body) : c = '_' ∨ c = '+' ∨ (digitIn 10 c).isSome :=
      (mem_of_signed signed member).imp_right (Or.imp_right denotes.isSome)
    rw [List.nil_append, read]
    · rfl
    · rintro rest rfl
      exact absurd (decimal 'x' (by simp)) (by decide)
    · rintro rest rfl
      exact absurd (decimal 'X' (by simp)) (by decide)

theorem read_of_renders {cs : List Char} (renders : Renders n cs) :
    ∃ radix digits body, read (trim cs) = readUnsigned radix 64 body ∧ Signed digits body ∧
      Denotes radix n digits := by
  obtain ⟨clear, marked, signed, spelled, clear_too⟩ := renders
  obtain ⟨several, small⟩ := marked.several
  have denotes := (Text.denotes_iff_toDigits several small).2 ⟨_, spelled⟩
  rw [Text.trim_append clear (isWord_of_signed marked signed denotes).trimmed clear_too]
  exact ⟨_, _, _, read_of_signed marked signed denotes, signed, denotes⟩

theorem renders_of_read {cs : List Char} (found : read (trim cs) = .ok n) : n < 2 ^ 64 ∧ Renders n cs := by
  obtain ⟨mark, radix, body, marked, split, same⟩ := exists_mark (trim cs)
  obtain ⟨before, after, clear, clear_too, whole⟩ := Text.exists_trim cs
  obtain ⟨several, small⟩ := marked.several
  rw [same, Text.readUnsigned_eq_ok_iff] at found
  obtain ⟨fits, digits, signed, denotes⟩ := found
  obtain ⟨zeros, spelled⟩ := (Text.denotes_iff_toDigits several small).1 denotes
  rw [whole, split]
  exact ⟨fits, .text clear marked signed spelled clear_too⟩

theorem parse_eq_ok_iff : parse text = .ok value ↔ Renders value.toNat text.toList := by
  unfold parse
  constructor
  · intro parsed
    cases found : read (trim text.toList) with
    | error cause => simp [found] at parsed
    | ok n =>
      obtain ⟨fits, renders⟩ := renders_of_read found
      simp only [found, Except.ok.injEq] at parsed
      rwa [← parsed, UInt64.toNat_ofNat_of_lt' fits]
  · intro renders
    obtain ⟨radix, digits, body, same, signed, denotes⟩ := read_of_renders renders
    have found : read (trim text.toList) = .ok value.toNat := by
      rw [same, Text.readUnsigned_eq_ok_iff]
      exact ⟨value.toNat_lt, digits, signed, denotes⟩
    simp [found]

theorem parse_of_large (renders : Renders n text.toList) (large : 2 ^ 64 ≤ n) :
    ∃ shown, parse text = .error ⟨shown, .tooLarge⟩ := by
  obtain ⟨radix, digits, body, same, signed, denotes⟩ := read_of_renders renders
  have refused : read (trim text.toList) = .error .tooLarge := by
    rw [same, Text.readUnsigned_of_large signed denotes large]
  exact ⟨String.ofList (trim text.toList), by simp [parse, refused]⟩

theorem renders_display (a : Address) : Renders a.value.toNat a.display.toList := by
  have several : 1 < 16 ∧ 16 ≤ 16 := by decide
  let zeros := 16 - (Text.hexDigits a.value.toNat).length
  have denotes := (Text.denotes_toDigits several.1 several.2 a.value.toNat).zeros (by decide) zeros
  have plain : (List.replicate zeros '0' ++ Nat.toDigits 16 a.value.toNat).filter (· != '_') =
      List.replicate zeros '0' ++ Nat.toDigits 16 a.value.toNat := by
    refine List.filter_eq_self.2 fun c member => ?_
    have digit := denotes.isSome member
    by_contra underscore
    obtain rfl : c = '_' := by simpa using underscore
    exact absurd digit (by decide)
  obtain ⟨count, spelled⟩ := (Text.denotes_iff_toDigits several.1 several.2).1 denotes
  have shown : a.display.toList =
      [] ++ (['0', 'x'] ++ (List.replicate zeros '0' ++ Nat.toDigits 16 a.value.toNat)) ++ [] := by
    simp only [Address.display, Text.zeroPadded, String.toList_append, String.toList_ofList,
      List.nil_append, List.append_nil]
    rfl
  rw [shown]
  exact .text nofun (.hexadecimal (.inl rfl)) (plain.symm ▸ .plain) spelled nofun

theorem exists_digit_of_signed (signed : Signed digits (body.filter (· != '_')))
    (denotes : Denotes radix n digits) : ∃ c ∈ body, (digitIn radix c).isSome := by
  obtain ⟨c, member⟩ := List.exists_mem_of_ne_nil digits denotes.nonempty
  have inside : c ∈ body.filter (· != '_') := by
    generalize body.filter (· != '_') = filtered at signed
    cases signed with
    | plain => exact member
    | plus => exact List.mem_cons_of_mem _ member
  exact ⟨c, List.mem_of_mem_filter inside, denotes.isSome member⟩

theorem exists_digit {before rest : List Char} (renders : Renders n (before ++ (mark ++ rest)))
    (clear : Blank before) (marked : Mark mark radix) : ∃ c ∈ rest, (digitIn radix c).isSome := by
  generalize whole : before ++ (mark ++ rest) = text at renders
  obtain @⟨front, own, body, digits, after, _, _, clear_front, marked_own, signed, spelled, clear_after⟩ :=
    renders
  obtain ⟨several, small⟩ := marked_own.several
  have denotes := (Text.denotes_iff_toDigits several small).2 ⟨_, spelled⟩
  obtain ⟨c, member, digit⟩ := exists_digit_of_signed signed denotes
  have solid : isBlank c = false := by
    obtain ⟨_, found⟩ := Option.isSome_iff_exists.1 digit
    exact (Text.plain_of_digitIn found).1
  -- Whatever is not white space stands behind the white space in front, in both cuts.
  have shared {c : Char} (solid : isBlank c = false) : c ∈ mark ++ rest ↔ c ∈ own ++ body := by
    have outside (blanks : List Char) (blank : Blank blanks) : c ∉ blanks := fun inside => by
      rw [blank c inside] at solid
      cases solid
    have same := congrArg (c ∈ ·) whole
    simpa [outside before clear, outside front clear_front, outside after clear_after] using same
  cases marked with
  | decimal =>
    cases marked_own with
    | decimal => exact ⟨c, (shared solid).2 member, digit⟩
    | hexadecimal either => exact ⟨'0', (shared (by decide)).2 (by simp), by decide⟩
  | @hexadecimal letter either =>
    have letter_solid : isBlank letter = false := by rcases either with rfl | rfl <;> decide
    cases marked_own with
    | decimal =>
      have inside : letter ∈ body := (shared letter_solid).1 (by simp)
      have wrong := (mem_of_signed signed inside).imp_right (Or.imp_right denotes.isSome)
      rcases either with rfl | rfl <;> exact absurd wrong (by decide)
    | hexadecimal _ =>
      have aligned := congrArg (List.dropWhile isBlank) whole
      rw [List.append_assoc, Text.dropWhile_blank clear _ ⟨'0', rfl, by decide⟩,
        Text.dropWhile_blank clear_front _ ⟨'0', rfl, by decide⟩] at aligned
      obtain ⟨_, rfl⟩ : _ ∧ rest = body ++ after := by simpa using aligned
      exact ⟨c, List.mem_append_left _ member, digit⟩

/-- An address is accepted exactly when the text renders it, and then it is the number rendered. The way
addresses are shown is one of its renderings. A number that does not fit is refused for that, and what has no
digit behind its mark is refused. -/
theorem parse_exact :
    (∀ text value, parse text = .ok value ↔ Renders value.toNat text.toList) ∧
    (∀ a : Address, parse a.display = .ok a.value) ∧
    (∀ text n, Renders n text.toList → 2 ^ 64 ≤ n → ∃ shown, parse text = .error ⟨shown, .tooLarge⟩) ∧
    ∀ before mark radix rest, Blank before → Mark mark radix →
      (∀ c ∈ rest, ∀ digit < radix, c.toLower ≠ Nat.digitChar digit) →
      ∃ fault, parse (String.ofList (before ++ (mark ++ rest))) = .error fault := by
  refine ⟨fun text value => parse_eq_ok_iff, fun a => parse_eq_ok_iff.2 (renders_display a),
    fun text n renders large => parse_of_large renders large,
    fun before mark radix rest clear marked digitless => ?_⟩
  cases parsed : parse (String.ofList (before ++ (mark ++ rest))) with
  | error fault => exact ⟨fault, rfl⟩
  | ok value =>
    have renders := parse_eq_ok_iff.1 parsed
    rw [String.toList_ofList] at renders
    obtain ⟨c, member, found⟩ := exists_digit renders clear marked
    obtain ⟨digit, found⟩ := Option.isSome_iff_exists.1 found
    obtain ⟨below, same⟩ := (Text.digitIn_eq_some_iff_digitChar marked.several.2).1 found
    exact absurd same (digitless c member digit below)

/-- The largest address with all that may stand around its digits, the number behind it, and a mark with no
digit behind it. -/
theorem parse_exact_limit :
    Renders (2 ^ 64 - 1) "\t0X_00fFFF_ffffFFFFffff_\n".toList ∧
      parse "\t0X_00fFFF_ffffFFFFffff_\n" = .ok 0xffffffffffffffff ∧
      Renders (2 ^ 64) " +18_446_744_073_709_551_616".toList ∧ 2 ^ 64 ≤ 2 ^ 64 ∧
      (∃ shown, parse " +18_446_744_073_709_551_616" = .error ⟨shown, .tooLarge⟩) ∧
      Blank [' '] ∧ Mark ['0', 'x'] 16 ∧
      (∀ c ∈ ['_', '+', 'g'], ∀ digit < 16, c.toLower ≠ Nat.digitChar digit) ∧
      ∃ fault, parse (String.ofList ([' '] ++ (['0', 'x'] ++ ['_', '+', 'g']))) = .error fault := by
  obtain ⟨exact_value, _, large, digitless⟩ := parse_exact
  have largest : Renders (2 ^ 64 - 1) "\t0X_00fFFF_ffffFFFFffff_\n".toList :=
    @Renders.text _ ['\t'] ['0', 'X'] "_00fFFF_ffffFFFFffff_".toList "00fFFFffffFFFFffff".toList ['\n'] 16 2
      (by decide) (.hexadecimal (.inr rfl)) .plain (by decide +kernel) (by decide)
  have beyond : Renders (2 ^ 64) " +18_446_744_073_709_551_616".toList :=
    @Renders.text _ [' '] [] "+18_446_744_073_709_551_616".toList "18446744073709551616".toList [] 10 0
      (by decide) .decimal .plus (by decide +kernel) nofun
  have blank : Blank [' '] := by decide
  have marked : Mark ['0', 'x'] 16 := .hexadecimal (.inl rfl)
  have none : ∀ c ∈ ['_', '+', 'g'], ∀ digit < 16, c.toLower ≠ Nat.digitChar digit := by
    intro c member digit below same
    have found := (Text.digitIn_eq_some_iff_digitChar (by decide)).2 ⟨below, same⟩
    have listed : c = '_' ∨ c = '+' ∨ c = 'g' := by simpa using member
    rcases listed with rfl | rfl | rfl <;> cases found
  exact ⟨largest, (exact_value _ _).2 largest, beyond, le_rfl, large _ _ beyond le_rfl, blank, marked, none,
    digitless [' '] ['0', 'x'] 16 ['_', '+', 'g'] blank marked none⟩

end Symbolizer.AddressText
