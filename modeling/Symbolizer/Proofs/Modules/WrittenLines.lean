import Symbolizer.Modules
import Symbolizer.Proofs.Text.Numeral
import Symbolizer.Proofs.Text.Words

/-!
Reading back a written line of a memory map. Bounds and permissions come back as they were written, in
whatever form the numbers have. The pathname is put together again from its words, so it comes back as it was
exactly when all white space in it is single spaces.
-/

namespace Symbolizer.Mapping

open Text

structure Fields where
  low : List Char
  high : List Char
  permissions : List Char
  offset : List Char
  device : List Char
  inode : List Char
  pathname : List Char

def Fields.line (fields : Fields) : List Char :=
  joinWith [' '] [fields.low ++ '-' :: fields.high, fields.permissions, fields.offset, fields.device,
    fields.inode, fields.pathname]

/-- The fields spell four words, and the others are such that a line can be taken apart again. -/
structure Fields.Spell (fields : Fields) (low high offset inode : UInt64) : Prop where
  starts : Denotes 16 low.toNat fields.low
  ends : Denotes 16 high.toNat fields.high
  allowed : IsWord fields.permissions
  placed : Denotes 16 offset.toNat fields.offset
  held : IsWord fields.device
  numbered : Denotes 10 inode.toNat fields.inode
  trimmed : Trimmed fields.pathname
  bare : isBracketed fields.pathname = false

def Fields.ofWords (low high offset inode : UInt64) (permissions device pathname : List Char) : Fields where
  low := hexDigits low.toNat
  high := hexDigits high.toNat
  permissions := permissions
  offset := hexDigits offset.toNat
  device := device
  inode := decimalDigits inode.toNat
  pathname := pathname

variable {low high offset inode word : UInt64} {radix : Nat}
variable {digits permissions device pathname : List Char} {fields : Fields}

theorem spell_ofWords (allowed : IsWord permissions) (held : IsWord device) (trimmed : Trimmed pathname)
    (bare : isBracketed pathname = false) :
    (Fields.ofWords low high offset inode permissions device pathname).Spell low high offset inode where
  starts := denotes_toDigits (by decide) (by decide) low.toNat
  ends := denotes_toDigits (by decide) (by decide) high.toNat
  allowed := allowed
  placed := denotes_toDigits (by decide) (by decide) offset.toNat
  held := held
  numbered := denotes_toDigits (by decide) (by decide) inode.toNat
  trimmed := trimmed
  bare := bare

theorem splitAt?_append {separator : Char} {front : List Char} (absent : separator ∉ front)
    (back : List Char) : splitAt? separator (front ++ separator :: back) = some (front, back) := by
  have passed (c : Char) (member : c ∈ front) : (c != separator) = true :=
    bne_iff_ne.2 fun same => absent (same ▸ member)
  simp [splitAt?, List.dropWhile_append_of_pos passed, List.takeWhile_append_of_pos passed]

theorem word?_of_denotes (denotes : Denotes radix word.toNat digits) : word? radix digits = some word := by
  rw [word?, readUnsigned_of_denotes denotes word.toNat_lt]
  exact congrArg some UInt64.ofNat_toNat

theorem isWord_of_denotes {n : Nat} (denotes : Denotes radix n digits) : IsWord digits :=
  ⟨denotes.nonempty, fun _ member => (denotes.plain member).1⟩

theorem Fields.Spell.isWord_bounds (spell : fields.Spell low high offset inode) :
    IsWord (fields.low ++ '-' :: fields.high) := by
  refine ⟨by simp, fun c member => ?_⟩
  rcases List.mem_append.1 member with here | there
  · exact (spell.starts.plain here).1
  · rcases List.mem_cons.1 there with rfl | later
    · decide
    · exact (spell.ends.plain later).1

/-- The ends of a pathname stay, so squeezing puts it neither into brackets nor out of them. -/
theorem pathnameOf_words (trimmed : Trimmed pathname) (bare : isBracketed pathname = false) :
    pathnameOf (words pathname) = some (String.ofList (squeezed pathname)) := by
  have front := head?_squeezed trimmed.first
  have back := getLast?_squeezed trimmed.last
  have unbracketed : isBracketed (squeezed pathname) = false := by
    rw [← bare, isBracketed, isBracketed, front, back]
  have nonempty : (squeezed pathname).isEmpty = false := by
    obtain ⟨c, first, _⟩ := trimmed.first
    rw [← front] at first
    obtain ⟨rest, told⟩ := List.head?_eq_some_iff.1 first
    rw [told, List.isEmpty_cons]
  rw [squeezed] at unbracketed nonempty
  rw [pathnameOf, unbracketed, nonempty, squeezed]
  rfl

theorem words_line (spell : fields.Spell low high offset inode) :
    words fields.line =
      (fields.low ++ '-' :: fields.high) :: fields.permissions :: fields.offset :: fields.device ::
        fields.inode :: words fields.pathname := by
  rw [Fields.line, words_joinWith]
  simp [words_of_isWord spell.isWord_bounds, words_of_isWord spell.allowed,
    words_of_isWord (isWord_of_denotes spell.placed), words_of_isWord spell.held,
    words_of_isWord (isWord_of_denotes spell.numbered)]

/-- A line is read as a mapping with its bounds, its permissions and its pathname in which all white space
is made single spaces. So the pathname is read as it was written exactly when there is no other white space
in it. -/
theorem parse?_line (spell : fields.Spell low high offset inode) :
    parse? fields.line =
        some ⟨low, high, String.ofList fields.permissions,
          some (String.ofList (squeezed fields.pathname))⟩ ∧
      (parse? fields.line =
          some ⟨low, high, String.ofList fields.permissions, some (String.ofList fields.pathname)⟩ ↔
        SingleSpaced fields.pathname) := by
  have dashless : '-' ∉ fields.low := fun member => (spell.starts.plain member).2.1 rfl
  have read : parse? fields.line =
      some ⟨low, high, String.ofList fields.permissions,
        some (String.ofList (squeezed fields.pathname))⟩ := by
    rw [parse?, words_line spell]
    simp [splitAt?_append dashless, word?_of_denotes spell.starts, word?_of_denotes spell.ends,
      word?_of_denotes spell.placed, word?_of_denotes spell.numbered,
      pathnameOf_words spell.trimmed spell.bare]
  refine ⟨read, ?_⟩
  rw [read, ← squeezed_eq_self_iff spell.trimmed, ← String.ofList_inj]
  simp

def gapFields : Fields :=
  .ofWords 0x1000 0x2000 0 1 "r-xp".toList "08:01".toList "/opt/My  Tools/a.exe".toList

theorem gapFields_spell : gapFields.Spell 0x1000 0x2000 0 1 :=
  spell_ofWords (by simp [IsWord, isBlank]) (by simp [IsWord, isBlank])
    ⟨⟨'/', rfl, by decide⟩, ⟨'e', by cbv, by decide⟩⟩ (by cbv)

/-- One of the two spaces is lost. -/
theorem parse?_line_gapFields :
    gapFields.Spell 0x1000 0x2000 0 1 ∧
      parse? "1000-2000 r-xp 0 08:01 1 /opt/My  Tools/a.exe".toList =
        some ⟨0x1000, 0x2000, "r-xp", some (String.ofList (squeezed gapFields.pathname))⟩ ∧
      String.ofList (squeezed gapFields.pathname) = "/opt/My Tools/a.exe" ∧
      ¬SingleSpaced gapFields.pathname := by
  obtain ⟨read, unchanged⟩ := parse?_line gapFields_spell
  have line : gapFields.line = "1000-2000 r-xp 0 08:01 1 /opt/My  Tools/a.exe".toList := by cbv
  have lost : String.ofList (squeezed gapFields.pathname) = "/opt/My Tools/a.exe" := by cbv
  refine ⟨gapFields_spell, line ▸ read, lost, fun single => ?_⟩
  have kept : String.ofList (squeezed gapFields.pathname) = String.ofList gapFields.pathname := by
    simpa using read.symm.trans (unchanged.2 single)
  have written : String.ofList gapFields.pathname = "/opt/My  Tools/a.exe" := by cbv
  rw [lost, written] at kept
  exact absurd kept (by decide)

/-- The pathname is not read as it was written. -/
theorem parse?_ne_gapFields :
    gapFields.Spell 0x1000 0x2000 0 1 ∧
      gapFields.line = "1000-2000 r-xp 0 08:01 1 /opt/My  Tools/a.exe".toList ∧
      parse? gapFields.line ≠ some ⟨0x1000, 0x2000, "r-xp", some "/opt/My  Tools/a.exe"⟩ := by
  refine ⟨gapFields_spell, by cbv, ?_⟩
  have read : parse? gapFields.line = some ⟨0x1000, 0x2000, "r-xp", some "/opt/My Tools/a.exe"⟩ := by cbv
  rw [read]
  decide

end Symbolizer.Mapping
