import Symbolizer.Mangling.Scheme
import Symbolizer.Proofs.Text.Cuts

/-!
The language that the spelling of a name tells. The tail of a name is cut out at places that are counted in bytes
from its end; the places are boundaries whenever a cut is made, so that every name gets an answer, and the answer
depends on the characters alone.
-/

namespace Symbolizer.Mangling

/-- `17h`, sixteen hexadecimal digits and an `E` at the end of a name. -/
def Hashed (name : List Char) : Prop :=
  ∃ path hash : List Char, name = path ++ "17h".toList ++ hash ++ ['E'] ∧ hash.length = 16 ∧
    ∀ c ∈ hash, isHexDigit c = true

def IsPath (name : List Char) : Prop :=
  "_R".toList <+: name ∨ "_ZN".toList <+: name ∧ Hashed name

def IsObject (name : List Char) : Prop :=
  ¬IsPath name ∧ ("_Z".toList <+: name ∨ "?".toList <+: name)

def IsIdentifier (name : List Char) : Prop :=
  name ≠ [] ∧ ∀ c ∈ name, isIdentifierChar c = true

inductive Tells (name : List Char) : Language → Prop where
  | rust (path : IsPath name) : Tells name .rust
  | cpp (object : IsObject name) : Tells name .cpp
  | c (unmangled : ¬IsPath name ∧ ¬IsObject name) (identifier : IsIdentifier name) : Tells name .c
  | unknown (unmangled : ¬IsPath name ∧ ¬IsObject name) (odd : ¬IsIdentifier name) : Tells name .unknown

variable {name body : List Char} {language : Language}

theorem startsWith_iff {mark : String} : startsWith mark name = true ↔ mark.toList <+: name :=
  List.isPrefixOf_iff_prefix

/-! The tail of a hashed path. -/

theorem ascii_of_le {c top : Char} (below : c ≤ top) (ascii : top.toNat < 0x80) : c.toNat < 0x80 :=
  Nat.lt_of_le_of_lt (UInt32.le_iff_toNat_le.1 below) ascii

theorem ascii_of_isHexDigit (c : Char) (member : isHexDigit c = true) : c.toNat < 0x80 := by
  simp only [isHexDigit, Bool.or_eq_true, Bool.and_eq_true, decide_eq_true_eq] at member
  rcases member with (⟨_, below⟩ | ⟨_, below⟩) | ⟨_, below⟩ <;> exact ascii_of_le below (by decide)

theorem ascii_of_isIdentifierChar (c : Char) (member : isIdentifierChar c = true) : c.toNat < 0x80 := by
  simp only [isIdentifierChar, Bool.or_eq_true, Bool.and_eq_true, decide_eq_true_eq, beq_iff_eq] at member
  rcases member with (((⟨_, below⟩ | ⟨_, below⟩) | ⟨_, below⟩) | rfl) | rfl
  · exact ascii_of_le below (by decide)
  · exact ascii_of_le below (by decide)
  · exact ascii_of_le below (by decide)
  · decide
  · decide

theorem withoutLast?_eq_some_iff {mark : Char} : withoutLast? mark name = some body ↔ name = body ++ [mark] := by
  rw [withoutLast?, Option.ite_none_right_eq_some, Option.some.injEq, List.getLast?_eq_some_iff]
  constructor
  · rintro ⟨⟨front, rfl⟩, rfl⟩
    rw [List.dropLast_concat]
  · rintro rfl
    exact ⟨⟨body, rfl⟩, List.dropLast_concat⟩

theorem size_mark : Text.Utf8.size "17h".toList = 3 := by
  decide

theorem size_hash {hash : List Char} (long : hash.length = 16) (digits : ∀ c ∈ hash, isHexDigit c = true) :
    Text.Utf8.size hash = 16 :=
  (Text.Utf8.size_eq_length ascii_of_isHexDigit (List.all_eq_true.2 digits)).trans long

theorem exists_cut_of_hashed (hashed : Hashed (body ++ ['E'])) :
    ∃ path hash, body = path ++ ("17h".toList ++ hash) ∧ (∀ c ∈ hash, isHexDigit c = true) ∧
      Text.Utf8.size body = Text.Utf8.size path + 19 := by
  obtain ⟨path, hash, split, long, digits⟩ := hashed
  obtain rfl := List.append_cancel_right split
  refine ⟨path, hash, List.append_assoc _ _ _, digits, ?_⟩
  rw [Text.Utf8.size_append, Text.Utf8.size_append, size_mark, size_hash long digits]

/-- Where a cut leaves nineteen bytes behind it, a hashed path is one whose bytes there say so. -/
theorem hashed_iff_of_cut {front marked : List Char}
    (measured : Text.Utf8.size (front ++ marked) = Text.Utf8.size front + 19) :
    Hashed (front ++ marked ++ ['E']) ↔
      ∃ hash, marked = "17h".toList ++ hash ∧ Text.Utf8.everyByte isHexDigit hash = true := by
  constructor
  · intro hashed
    obtain ⟨path, hash, split, digits, placed⟩ := exists_cut_of_hashed hashed
    have cut := Text.Utf8.from?_append path ("17h".toList ++ hash)
    have place : Text.Utf8.size path = Text.Utf8.size front := by omega
    rw [← split, place, Text.Utf8.from?_append, Option.some.injEq] at cut
    exact ⟨hash, cut, (Text.Utf8.everyByte_eq_all ascii_of_isHexDigit hash).trans (List.all_eq_true.2 digits)⟩
  · rintro ⟨hash, rfl, digits⟩
    rw [Text.Utf8.everyByte_eq_all ascii_of_isHexDigit] at digits
    rw [Text.Utf8.size_append, Text.Utf8.size_append, size_mark,
      Text.Utf8.size_eq_length ascii_of_isHexDigit digits] at measured
    exact ⟨front, hash, by simp only [List.append_assoc], by omega, List.all_eq_true.1 digits⟩

/-- Behind a first cut that leads to a boundary no cut fails: the three bytes of `17h` lead to another. -/
theorem endsInHash?_tells {front marked : List Char}
    (measured : Text.Utf8.size (front ++ marked) = Text.Utf8.size front + 19) :
    ∃ ends, endsInHash? (front ++ marked) = some ends ∧
      (ends = true ↔ Hashed (front ++ marked ++ ['E'])) := by
  have mark := Text.Utf8.placeFromEnd?_eq_some_iff.2 measured.symm
  rw [hashed_iff_of_cut measured]
  simp only [endsInHash?, mark, Text.Utf8.from?_append, Option.bind_eq_bind, Option.bind_some]
  by_cases starts : startsWith "17h" marked = true
  · obtain ⟨digits, rfl⟩ := startsWith_iff.1 starts
    have place : Text.Utf8.size (front ++ "17h".toList) + 16 =
        Text.Utf8.size (front ++ ("17h".toList ++ digits)) := by
      rw [measured, Text.Utf8.size_append, size_mark]
    have behind : Text.Utf8.from? (front ++ ("17h".toList ++ digits))
        (Text.Utf8.size (front ++ "17h".toList)) = some digits :=
      Text.Utf8.from?_eq_some_iff.2 ⟨front ++ "17h".toList, (List.append_assoc _ _ _).symm, rfl⟩
    rw [if_pos starts, Text.Utf8.placeFromEnd?_eq_some_iff.2 place, Option.bind_some, behind]
    refine ⟨Text.Utf8.everyByte isHexDigit digits, rfl, fun members => ⟨digits, rfl, members⟩, ?_⟩
    rintro ⟨hash, same, members⟩
    rwa [List.append_cancel_left same]
  · refine ⟨false, if_neg starts, iff_of_false Bool.false_ne_true ?_⟩
    rintro ⟨hash, rfl, -⟩
    exact starts (startsWith_iff.2 ⟨hash, rfl⟩)

/-- The two tests in front of the cuts ask for what the cuts need, and for no more. -/
theorem endsInHash?_ne_none_iff :
    endsInHash? body ≠ none ↔
      ∃ mark, mark + 19 = Text.Utf8.size body ∧ Text.Utf8.isBoundary body mark = true := by
  constructor
  · intro cut
    obtain ⟨ends, told⟩ := Option.ne_none_iff_exists'.1 cut
    rw [endsInHash?] at told
    obtain ⟨mark, place, told⟩ := Option.bind_eq_some_iff.1 told
    obtain ⟨marked, behind, -⟩ := Option.bind_eq_some_iff.1 told
    obtain ⟨front, rfl, rfl⟩ := Text.Utf8.from?_eq_some_iff.1 behind
    exact ⟨_, Text.Utf8.placeFromEnd?_eq_some_iff.1 place, Text.Utf8.isBoundary_iff.2 ⟨front, marked, rfl, rfl⟩⟩
  · rintro ⟨mark, place, boundary⟩
    obtain ⟨front, marked, rfl, rfl⟩ := Text.Utf8.isBoundary_iff.1 boundary
    obtain ⟨ends, told, -⟩ := endsInHash?_tells place.symm
    rw [told]
    exact Option.some_ne_none ends

/-- Seven bytes are too few for the first cut. -/
example : endsInHash? "_ZN3foo".toList = none := by decide

theorem endsInPathHash?_tells (name : List Char) :
    ∃ ends, endsInPathHash? name = some ends ∧ (ends = true ↔ Hashed name) := by
  rw [endsInPathHash?]
  cases last : withoutLast? 'E' name with
  | none =>
    refine ⟨false, rfl, iff_of_false Bool.false_ne_true ?_⟩
    rintro ⟨path, hash, rfl, -⟩
    rw [withoutLast?_eq_some_iff.2 rfl] at last
    cases last
  | some body =>
    obtain rfl := withoutLast?_eq_some_iff.1 last
    dsimp only
    by_cases short : Text.Utf8.size body < 19
    · refine ⟨false, if_pos short, iff_of_false Bool.false_ne_true fun hashed => ?_⟩
      obtain ⟨_, _, _, _, measured⟩ := exists_cut_of_hashed hashed
      omega
    -- The test of the length is what makes the place of the first cut exist.
    obtain ⟨mark, place⟩ : ∃ mark, mark + 19 = Text.Utf8.size body :=
      ⟨Text.Utf8.size body - 19, Nat.sub_add_cancel (Nat.not_lt.1 short)⟩
    rw [if_neg short, Text.Utf8.placeFromEnd?_eq_some_iff.2 place, Option.bind_eq_bind, Option.bind_some]
    by_cases boundary : Text.Utf8.isBoundary body mark = true
    · obtain ⟨front, marked, rfl, rfl⟩ := Text.Utf8.isBoundary_iff.1 boundary
      rw [if_pos boundary]
      exact endsInHash?_tells place.symm
    · refine ⟨false, if_neg boundary, iff_of_false Bool.false_ne_true fun hashed => boundary ?_⟩
      obtain ⟨path, hash, rfl, -, measured⟩ := exists_cut_of_hashed hashed
      exact Text.Utf8.isBoundary_iff.2 ⟨path, _, rfl, by omega⟩

theorem isPath?_tells (name : List Char) :
    ∃ path, isPath? name = some path ∧ (path = true ↔ IsPath name) := by
  rw [isPath?]
  by_cases short : startsWith "_R" name = true
  · exact ⟨true, if_pos short, iff_of_true rfl (.inl (startsWith_iff.1 short))⟩
  rw [if_neg short]
  rw [startsWith_iff] at short
  by_cases nested : startsWith "_ZN" name = true
  · obtain ⟨ends, told, hashed⟩ := endsInPathHash?_tells name
    refine ⟨ends, (if_pos nested).trans told, ?_⟩
    rw [startsWith_iff] at nested
    rw [hashed, IsPath]
    simp only [short, nested, false_or, true_and]
  · refine ⟨false, if_neg nested, iff_of_false Bool.false_ne_true ?_⟩
    rw [startsWith_iff] at nested
    rintro (path | ⟨path, -⟩)
    · exact short path
    · exact nested path

/-! The language of a name. -/

theorem isIdentifier_iff :
    (!name.isEmpty && Text.Utf8.everyByte isIdentifierChar name) = true ↔ IsIdentifier name := by
  rw [Text.Utf8.everyByte_eq_all ascii_of_isIdentifierChar, Bool.and_eq_true, Bool.not_eq_true',
    List.isEmpty_eq_false_iff, List.all_eq_true, IsIdentifier]

theorem classify?_tells (name : List Char) :
    ∃ language, classify? name = some language ∧ Tells name language := by
  obtain ⟨path, told, isPath⟩ := isPath?_tells name
  have marked : (startsWith "_Z" name || startsWith "?" name) = true ↔
      "_Z".toList <+: name ∨ "?".toList <+: name := by
    rw [Bool.or_eq_true, startsWith_iff, startsWith_iff]
  rw [classify?, told, Option.bind_eq_bind, Option.bind_some]
  by_cases hashed : path = true
  · exact ⟨.rust, if_pos hashed, .rust (isPath.1 hashed)⟩
  rw [if_neg hashed]
  rw [isPath] at hashed
  by_cases object : "_Z".toList <+: name ∨ "?".toList <+: name
  · exact ⟨.cpp, if_pos (marked.2 object), .cpp ⟨hashed, object⟩⟩
  rw [if_neg fun wrong => object (marked.1 wrong)]
  have unmangled : ¬IsPath name ∧ ¬IsObject name := ⟨hashed, fun wrong => object wrong.2⟩
  by_cases identifier : IsIdentifier name
  · exact ⟨.c, if_pos (isIdentifier_iff.2 identifier), .c unmangled identifier⟩
  · exact ⟨.unknown, if_neg fun wrong => identifier (isIdentifier_iff.1 wrong), .unknown unmangled identifier⟩

theorem classify?_eq (name : List Char) : classify? name = some (classify name) := by
  obtain ⟨language, told, -⟩ := classify?_tells name
  rw [classify, told, Option.getD_some]

theorem tells_classify (name : List Char) : Tells name (classify name) := by
  obtain ⟨language, told, tells⟩ := classify?_tells name
  rw [classify, told, Option.getD_some]
  exact tells

theorem tells_unique {other : Language} (tells : Tells name language) (tells_too : Tells name other) :
    language = other := by
  cases tells <;> cases tells_too <;> simp_all [IsObject]

theorem tells_iff : Tells name language ↔ classify name = language := by
  constructor
  · exact tells_unique (tells_classify name)
  · rintro rfl
    exact tells_classify name

theorem classify_eq_rust_iff : classify name = .rust ↔ IsPath name := by
  rw [← tells_iff]
  constructor
  · intro tells
    cases tells with
    | rust path => exact path
  · exact .rust

theorem classify_eq_cpp_iff : classify name = .cpp ↔ IsObject name := by
  rw [← tells_iff]
  constructor
  · intro tells
    cases tells with
    | cpp object => exact object
  · exact .cpp

theorem classify_eq_c_iff : classify name = .c ↔ (¬IsPath name ∧ ¬IsObject name) ∧ IsIdentifier name := by
  rw [← tells_iff]
  constructor
  · intro tells
    cases tells with
    | c unmangled identifier => exact ⟨unmangled, identifier⟩
  · rintro ⟨unmangled, identifier⟩
    exact .c unmangled identifier

/-- `_ZN`, any text, `17h`, sixteen hexadecimal digits and an `E`, one behind the other. -/
def IsHashedPath (name : List Char) : Prop :=
  ∃ text hash : List Char, name = "_ZN".toList ++ text ++ "17h".toList ++ hash ++ ['E'] ∧
    hash.length = 16 ∧ ∀ c ∈ hash, isHexDigit c = true

/-- The tail of a name cannot reach into `_ZN` in front, since no suffix of that begins like `17h`. -/
theorem isHashedPath_iff : "_ZN".toList <+: name ∧ Hashed name ↔ IsHashedPath name := by
  constructor
  · rintro ⟨⟨behind, front⟩, path, hash, rfl, long, digits⟩
    match path with
    | [] => simp at front
    | [_] => simp at front
    | [_, _] => simp at front
    | _ :: _ :: _ :: text =>
      simp only [String.reduceToList, List.cons_append, List.nil_append, List.cons.injEq] at front
      obtain ⟨rfl, rfl, rfl, -⟩ := front
      exact ⟨text, hash, rfl, long, digits⟩
  · rintro ⟨text, hash, rfl, long, digits⟩
    exact ⟨⟨text ++ "17h".toList ++ hash ++ ['E'], by simp only [List.append_assoc]⟩, "_ZN".toList ++ text,
      hash, rfl, long, digits⟩

/-- Every name gets an answer, in which no cut fails, and the answer is the first of these that holds of its
characters. -/
theorem classify_exact (name : List Char) :
    classify? name = some (classify name) ∧
    (classify name = .rust ↔ "_R".toList <+: name ∨ IsHashedPath name) ∧
    (classify name = .cpp ↔ classify name ≠ .rust ∧ ("_Z".toList <+: name ∨ "?".toList <+: name)) ∧
    (classify name = .c ↔ classify name ≠ .rust ∧ classify name ≠ .cpp ∧
      name ≠ [] ∧ ∀ c ∈ name, isIdentifierChar c = true) := by
  refine ⟨classify?_eq name, ?_, ?_, ?_⟩
  · rw [classify_eq_rust_iff, IsPath, isHashedPath_iff]
  · rw [classify_eq_cpp_iff, Ne, classify_eq_rust_iff, IsObject]
  · rw [classify_eq_c_iff, Ne, classify_eq_rust_iff, Ne, classify_eq_cpp_iff, IsIdentifier, and_assoc]

/-- A character of two bytes reaches over the place of the first cut. -/
example : classify "_ZNé7h0123456789abcdefE".toList = .cpp := by decide

end Symbolizer.Mangling
