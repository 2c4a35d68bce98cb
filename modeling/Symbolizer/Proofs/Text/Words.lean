import Mathlib
import Symbolizer.Text.Blank

/-!
Words and the white space between them. Splitting a text into words and joining them with single spaces
keeps every word, and changes the text exactly when some white space in it is not a single space.
-/

namespace Symbolizer.Text

def IsWord (cs : List Char) : Prop :=
  cs ≠ [] ∧ ∀ c ∈ cs, isBlank c = false

def squeezed (cs : List Char) : List Char :=
  joinWith [' '] (words cs)

structure Trimmed (cs : List Char) : Prop where
  first : ∃ c ∈ cs.head?, isBlank c = false
  last : ∃ c ∈ cs.getLast?, isBlank c = false

def Blank (cs : List Char) : Prop :=
  ∀ c ∈ cs, isBlank c = true

instance (cs : List Char) : Decidable (Blank cs) :=
  decidable_of_iff (cs.all isBlank = true) List.all_eq_true

structure SingleSpaced (cs : List Char) : Prop where
  spaces : ∀ c ∈ cs, isBlank c = true → c = ' '
  apart : cs.IsChain fun first second => ¬(isBlank first = true ∧ isBlank second = true)

variable {c next : Char} {cs rest : List Char}

theorem splitBy_eq (p : Char → Bool) (cs : List Char) : splitBy p cs = cs.splitOnP p := by
  induction cs with
  | nil => rfl
  | cons c rest ih =>
    rw [splitBy, List.splitOnP_cons_eq_if_modifyHead, ih]
    cases split : rest.splitOnP p with
    | nil => exact absurd split (List.splitOnP_ne_nil p rest)
    | cons piece pieces => rfl

theorem joinWith_cons_cons (separator piece : List Char) (next : List Char) (pieces : List (List Char)) :
    joinWith separator (piece :: next :: pieces) =
      piece ++ separator ++ joinWith separator (next :: pieces) :=
  rfl

/-! White space around a text. -/

theorem dropWhile_blank {blanks : List Char} (blank : Blank blanks) (rest : List Char)
    (solid : ∃ c ∈ rest.head?, isBlank c = false) : (blanks ++ rest).dropWhile isBlank = rest := by
  rw [List.dropWhile_append_of_pos blank]
  obtain ⟨c, first, solid⟩ := solid
  cases rest with
  | nil => cases first
  | cons head rest =>
    cases first
    exact List.dropWhile_cons_of_neg (by simp [solid])

theorem IsWord.trimmed (word : IsWord cs) : Trimmed cs := by
  obtain ⟨nonempty, solid⟩ := word
  refine ⟨⟨cs.head nonempty, List.head?_eq_some_head nonempty, solid _ (List.head_mem nonempty)⟩, ?_⟩
  exact ⟨cs.getLast nonempty, List.getLast?_eq_some_getLast nonempty, solid _ (List.getLast_mem nonempty)⟩

theorem trim_append {before after : List Char} (blank : Blank before) (trimmed : Trimmed cs)
    (blank_too : Blank after) : trim (before ++ cs ++ after) = cs := by
  have first : ∃ c ∈ (cs ++ after).head?, isBlank c = false := by
    obtain ⟨c, first, solid⟩ := trimmed.first
    exact ⟨c, by simp [Option.mem_def.1 first], solid⟩
  have last : ∃ c ∈ cs.reverse.head?, isBlank c = false := by
    rw [List.head?_reverse]
    exact trimmed.last
  have behind : Blank after.reverse := fun c member => blank_too c (List.mem_reverse.1 member)
  rw [trim, List.append_assoc, dropWhile_blank blank _ first, List.reverse_append,
    dropWhile_blank behind _ last, List.reverse_reverse]

theorem exists_trim (cs : List Char) :
    ∃ before after, Blank before ∧ Blank after ∧ cs = before ++ trim cs ++ after := by
  let rest := cs.dropWhile isBlank
  refine ⟨cs.takeWhile isBlank, (rest.reverse.takeWhile isBlank).reverse,
    fun c member => List.mem_takeWhile_imp member,
    fun c member => List.mem_takeWhile_imp (List.mem_reverse.1 member), ?_⟩
  have back : (rest.reverse.dropWhile isBlank).reverse ++ (rest.reverse.takeWhile isBlank).reverse =
      rest := by
    rw [← List.reverse_append, List.takeWhile_append_dropWhile, List.reverse_reverse]
  rw [List.append_assoc]
  show cs = cs.takeWhile isBlank ++ (_ ++ _)
  rw [trim, back, List.takeWhile_append_dropWhile]

/-! Words. -/

theorem words_eq (cs : List Char) : words cs = (cs.splitOnP isBlank).filter (!·.isEmpty) := by
  rw [words, splitBy_eq]

theorem words_append_blank (front : List Char) (blank : isBlank c = true) (rest : List Char) :
    words (front ++ c :: rest) = words front ++ words rest := by
  simp only [words_eq, List.splitOnP_append_cons front rest blank, List.filter_append]

theorem words_blank (blank : isBlank c = true) (rest : List Char) : words (c :: rest) = words rest :=
  words_append_blank [] blank rest

theorem words_of_isWord (word : IsWord cs) : words cs = [cs] := by
  rw [words_eq, List.splitOnP_eq_singleton word.2]
  simp [word.1]

theorem words_joinWith (pieces : List (List Char)) :
    words (joinWith [' '] pieces) = pieces.flatMap words := by
  match pieces with
  | [] => rfl
  | [piece] => simp [joinWith]
  | piece :: next :: pieces =>
    have space : isBlank ' ' = true := by decide
    rw [joinWith_cons_cons, List.append_assoc, List.singleton_append, words_append_blank _ space,
      words_joinWith (next :: pieces), List.flatMap_cons (x := piece)]

theorem words_single (solid : isBlank c = false) : words [c] = [[c]] :=
  words_of_isWord ⟨List.cons_ne_nil c [], by simpa using solid⟩

theorem words_gap (solid : isBlank c = false) (blank : isBlank next = true) (rest : List Char) :
    words (c :: next :: rest) = [c] :: words rest := by
  have parted := words_append_blank [c] blank rest
  rwa [words_single solid] at parted

theorem words_solid (solid : isBlank c = false) (solid_too : isBlank next = false) (rest : List Char) :
    ∃ word others, words (next :: rest) = word :: others ∧
      words (c :: next :: rest) = (c :: word) :: others := by
  simp only [words_eq, List.splitOnP_cons_eq_if_modifyHead, solid, solid_too, Bool.false_eq_true, if_false]
  cases split : rest.splitOnP isBlank with
  | nil => exact absurd split (List.splitOnP_ne_nil isBlank rest)
  | cons piece pieces => exact ⟨next :: piece, pieces.filter (!·.isEmpty), rfl, rfl⟩

theorem words_cons_ne_nil (solid : isBlank c = false) (rest : List Char) : words (c :: rest) ≠ [] := by
  cases rest with
  | nil => simp [words_single solid]
  | cons next rest =>
    cases kind : isBlank next with
    | true => simp [words_gap solid kind]
    | false =>
      obtain ⟨word, others, _, joined⟩ := words_solid solid kind rest
      simp [joined]

theorem words_ne_nil (member : c ∈ cs) (solid : isBlank c = false) : words cs ≠ [] := by
  induction cs with
  | nil => cases member
  | cons first rest ih =>
    cases kind : isBlank first with
    | false => exact words_cons_ne_nil kind rest
    | true =>
      rw [words_blank kind]
      rcases List.mem_cons.1 member with rfl | later
      · rw [kind] at solid
        cases solid
      · exact ih later

/-! Words joined again. -/

theorem squeezed_blank (blank : isBlank c = true) (rest : List Char) :
    squeezed (c :: rest) = squeezed rest := by
  rw [squeezed, words_blank blank, squeezed]

/-- Behind a character that is no white space, what is left is squeezed on its own, and a gap in front of it
becomes a single space unless nothing but the gap is left. -/
theorem squeezed_solid (solid : isBlank c = false) (rest : List Char) :
    squeezed (c :: rest) =
      c :: if rest.head?.any isBlank ∧ words rest ≠ [] then ' ' :: squeezed rest else squeezed rest := by
  cases rest with
  | nil =>
    rw [squeezed, words_single solid]
    rfl
  | cons next rest =>
    cases kind : isBlank next with
    | true =>
      rw [squeezed, words_gap solid kind, squeezed_blank kind, words_blank kind, squeezed]
      cases words rest <;> simp [kind, joinWith]
    | false =>
      obtain ⟨word, others, told, joined⟩ := words_solid solid kind rest
      rw [squeezed, squeezed, joined, told]
      cases others <;> simp [kind, joinWith]

theorem head?_squeezed (found : ∃ c ∈ cs.head?, isBlank c = false) : (squeezed cs).head? = cs.head? := by
  obtain ⟨c, first, solid⟩ := found
  obtain ⟨rest, rfl⟩ := List.head?_eq_some_iff.1 first
  rw [squeezed_solid solid, List.head?_cons, List.head?_cons]

theorem getLast?_squeezed (found : ∃ c ∈ cs.getLast?, isBlank c = false) :
    (squeezed cs).getLast? = cs.getLast? := by
  induction cs with
  | nil => rfl
  | cons c rest ih =>
    by_cases alone : rest = []
    · obtain ⟨last, here, solid⟩ := found
      obtain rfl : c = last := by simpa [alone] using here
      rw [alone, squeezed_solid solid]
      rfl
    · rw [List.getLast?_cons_of_ne_nil alone] at found ⊢
      have kept := ih found
      cases kind : isBlank c with
      | true => rw [squeezed_blank kind, kept]
      | false =>
        have more : squeezed rest ≠ [] := by
          rintro none
          rw [none] at kept
          exact alone (List.getLast?_eq_none_iff.1 kept.symm)
        rw [squeezed_solid kind, ← kept]
        split
        · rw [List.getLast?_cons_cons, List.getLast?_cons_of_ne_nil more]
        · rw [List.getLast?_cons_of_ne_nil more]

theorem squeezed_singleSpaced (cs : List Char) :
    SingleSpaced (squeezed cs) ∧ ∀ c ∈ (squeezed cs).head?, isBlank c = false := by
  induction cs with
  | nil => exact ⟨⟨nofun, .nil⟩, nofun⟩
  | cons c rest ih =>
    cases kind : isBlank c with
    | true =>
      rw [squeezed_blank kind]
      exact ih
    | false =>
      obtain ⟨⟨spaces, apart⟩, first⟩ := ih
      have spaced : SingleSpaced (' ' :: squeezed rest) := by
        refine ⟨?_, List.isChain_cons.2 ⟨fun next here both => ?_, apart⟩⟩
        · simpa using spaces
        · rw [first next here] at both
          exact Bool.false_ne_true both.2
      have begun {tail : List Char} (single : SingleSpaced tail) : SingleSpaced (c :: tail) := by
        refine ⟨?_, List.isChain_cons.2 ⟨fun _ _ both => ?_, single.apart⟩⟩
        · simpa [kind] using single.spaces
        · rw [kind] at both
          exact Bool.false_ne_true both.1
      rw [squeezed_solid kind]
      refine ⟨?_, by simpa using kind⟩
      split
      · exact begun spaced
      · exact begun ⟨spaces, apart⟩

/-- A text with single spaces only that ends in a word loses no more than a space at its front. -/
theorem SingleSpaced.eq_squeezed (single : SingleSpaced cs)
    (found : ∃ c ∈ cs.getLast?, isBlank c = false) :
    cs = if cs.head?.any isBlank then ' ' :: squeezed cs else squeezed cs := by
  induction cs with
  | nil => rfl
  | cons c rest ih =>
    obtain ⟨spaces, apart⟩ := single
    obtain ⟨after, apart⟩ := List.isChain_cons.1 apart
    by_cases alone : rest = []
    · obtain ⟨last, here, solid⟩ := found
      obtain rfl : c = last := by simpa [alone] using here
      simp [alone, solid, squeezed, words, splitBy, joinWith]
    · rw [List.getLast?_cons_of_ne_nil alone] at found
      have kept := ih ⟨fun d member => spaces d (List.mem_cons_of_mem c member), apart⟩ found
      obtain ⟨last, here, solid⟩ := found
      have more : words rest ≠ [] := words_ne_nil (List.mem_of_getLast? here) solid
      cases kind : isBlank c with
      | false =>
        rw [squeezed_solid kind]
        simpa [kind, more] using kept
      | true =>
        have space : c = ' ' := spaces c List.mem_cons_self kind
        obtain ⟨next, others, rfl⟩ := List.exists_cons_of_ne_nil alone
        have solid_next : isBlank next = false := by
          simpa [kind] using after next rfl
        subst space
        rw [squeezed_blank kind]
        simpa [solid_next, kind] using kept

theorem squeezed_eq_self_iff (trimmed : Trimmed cs) : squeezed cs = cs ↔ SingleSpaced cs := by
  constructor
  · intro same
    exact same ▸ (squeezed_singleSpaced cs).1
  · intro single
    obtain ⟨c, first, solid⟩ := trimmed.first
    have kept := single.eq_squeezed trimmed.last
    rw [first, Option.any_some, solid, if_neg Bool.false_ne_true] at kept
    exact kept.symm

end Symbolizer.Text
