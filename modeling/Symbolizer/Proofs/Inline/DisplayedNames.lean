import Symbolizer.Mangling.Demangle
import Symbolizer.Proofs.Inline.Links
import Symbolizer.Proofs.Mangling.Spellings
import Symbolizer.Proofs.Resolve.Demangling

/-!
What is shown for the function of an entry that has names of its own. The language is told from the spelling
of the stored name alone. With demangling a mangled linkage name is shown in its readable form, and one
without such a form gives way to the plain name beside it; without demangling every name is shown as it is
stored.
-/

namespace Symbolizer

namespace Mangling

/-- The readable forms. There is a reader for paths and one for names that start with `_Z`, and none for
names that start with a question mark. -/
inductive Demanglers.Reads (demanglers : Demanglers) (raw : String) : String → Prop where
  | path {text : String} (path : IsPath raw.toList) (read : demanglers.hashedPath raw = some text) :
      Reads demanglers raw text
  | itanium {text : String} (object : IsObject raw.toList) (marked : "_Z".toList <+: raw.toList)
      (read : demanglers.itanium raw = some text) : Reads demanglers raw text

variable {name : List Char} {language : Language} {demanglers : Demanglers} {raw text : String}

theorem apply_eq_some_iff :
    demanglers.apply (classify raw.toList) raw = some text ↔ demanglers.Reads raw text := by
  constructor
  · intro applied
    have tells := tells_classify raw.toList
    generalize classify raw.toList = language at applied tells
    cases tells with
    | rust path => exact .path path applied
    | cpp object =>
      simp only [Demanglers.apply] at applied
      split at applied
      next marked => exact .itanium object (startsWith_iff.1 marked) applied
      next => cases applied
    | c => cases applied
    | unknown => cases applied
  · intro reads
    cases reads with
    | path path read =>
      rw [tells_iff.1 (.rust path)]
      exact read
    | itanium object marked read =>
      rw [tells_iff.1 (.cpp object)]
      simp only [Demanglers.apply, startsWith_iff.2 marked, ↓reduceIte, read]

theorem apply_eq_none_iff :
    demanglers.apply (classify raw.toList) raw = none ↔ ∀ text, ¬demanglers.Reads raw text := by
  simp only [Option.eq_none_iff_forall_ne_some, ne_eq, apply_eq_some_iff]

theorem isMangled_iff :
    classify name = .rust ∨ classify name = .cpp ↔ IsPath name ∨ IsObject name := by
  rw [classify_eq_rust_iff, classify_eq_cpp_iff]

end Mangling

namespace Naming

open Mangling (IsPath IsObject)

/-- What is shown for a stored name, with the plain name beside it if there is one. A mangled name that has
no readable form gives way to the plain name, which may be the same one. -/
inductive Shows (naming : Naming) (raw : String) (beside : Option String) : String → Prop where
  | stored (off : naming.demangle = false) : Shows naming raw beside raw
  | readable {text : String} (on : naming.demangle = true) (reads : naming.demanglers.Reads raw text) :
      Shows naming raw beside text
  | plain {plain : String} (on : naming.demangle = true)
      (unreadable : ∀ text, ¬naming.demanglers.Reads raw text)
      (mangled : IsPath raw.toList ∨ IsObject raw.toList) (named : beside = some plain) :
      Shows naming raw beside plain
  | kept (on : naming.demangle = true) (unreadable : ∀ text, ¬naming.demanglers.Reads raw text)
      (alone : ¬(IsPath raw.toList ∨ IsObject raw.toList) ∨ beside = none) : Shows naming raw beside raw

variable {naming : Naming} {demanglers : Mangling.Demanglers} {names : Names} {raw text : String}

/-- Demanglers give one readable form or none, so the cases of what is shown exclude one another. -/
theorem shows_unique {beside : Option String} {other : String} (shows_it : naming.Shows raw beside text)
    (shows_too : naming.Shows raw beside other) : text = other := by
  have one_form {first second : String} (reads : naming.demanglers.Reads raw first)
      (reads_too : naming.demanglers.Reads raw second) : first = second :=
    Option.some.inj ((Mangling.apply_eq_some_iff.2 reads).symm.trans (Mangling.apply_eq_some_iff.2 reads_too))
  cases shows_it <;> cases shows_too <;> grind

theorem symbol_readable (first : names.stored? = some raw)
    (accepted : ∀ linkage plain, ¬Rejected demanglers names linkage plain) :
    Shows ⟨true, demanglers⟩ raw names.plain (symbol ⟨true, demanglers⟩ raw).display := by
  cases read : demanglers.apply (Mangling.classify raw.toList) raw with
  | some text =>
    have display : (symbol ⟨true, demanglers⟩ raw).display = text := by
      simp [SymbolName.display, symbol, read]
    rw [display]
    exact .readable rfl (Mangling.apply_eq_some_iff.1 read)
  | none =>
    have display : (symbol ⟨true, demanglers⟩ raw).display = raw := by
      simp [SymbolName.display, symbol, read]
    have unreadable := Mangling.apply_eq_none_iff.1 read
    rw [display]
    by_cases mangled : IsPath raw.toList ∨ IsObject raw.toList
    · cases named : names.plain with
      | none => exact .kept rfl unreadable (.inr rfl)
      | some plain =>
        -- The name stored first is no linkage name here, so it is the plain name itself.
        cases linked : names.linkage.or names.mipsLinkage with
        | some linkage =>
          have same : linkage = raw := by simpa [Names.stored?, linked] using first
          subst same
          exact absurd ⟨linked, named, Mangling.isMangled_iff.2 mangled, read⟩ (accepted linkage plain)
        | none =>
          have same : plain = raw := by simpa [Names.stored?, linked, named] using first
          subst same
          exact .plain rfl unreadable mangled rfl
    · exact .kept rfl unreadable (.inl mangled)

theorem stored?_eq_none_iff : names.stored? = none ↔ names = ⟨none, none, none⟩ := by
  obtain ⟨linkage, mips, plain⟩ := names
  cases linkage <;> cases mips <;> cases plain <;> simp [Names.stored?]

/-- The names of an entry make one symbol, of the language that the name stored first tells. -/
theorem choose_shows (naming : Naming) (first : names.stored? = some raw) :
    ∃ symbol, naming.choose names = some symbol ∧ symbol.language = Mangling.classify raw.toList ∧
      naming.Shows raw names.plain symbol.display := by
  obtain ⟨demangle, demanglers⟩ := naming
  cases demangle with
  | false =>
    refine ⟨symbol ⟨false, demanglers⟩ raw, ?_, rfl, .stored rfl⟩
    rw [choose_stored, first]
    rfl
  | true =>
    by_cases rejects : ∃ linkage plain, Rejected demanglers names linkage plain
    · obtain ⟨linkage, plain, rejected⟩ := rejects
      have same : linkage = raw := by simpa [Names.stored?, rejected.linked] using first
      subst same
      exact ⟨_, choose_of_rejected rejected, rfl,
        .plain rfl (Mangling.apply_eq_none_iff.1 rejected.unreadable)
          (Mangling.isMangled_iff.1 rejected.mangled) rejected.named⟩
    · have accepted : ∀ linkage plain, ¬Rejected demanglers names linkage plain :=
        fun linkage plain rejected => rejects ⟨linkage, plain, rejected⟩
      refine ⟨symbol ⟨true, demanglers⟩ raw, ?_, rfl, symbol_readable first accepted⟩
      rw [choose_of_not_rejected accepted, first]
      rfl

end Naming

namespace NameSource

open Dwarf (Entry)

/-- What an entry stores under the code of a name: nothing, or a text in any of the forms of strings. -/
inductive Stores (source : NameSource) (die : Die) (name : Nat) : Option String → Prop where
  | absent (missing : die.entry.attribute? name = .ok none) : Stores source die name none
  | present {value : Dwarf.Value} {bytes : Bytes} {text : String}
      (held : die.entry.attribute? name = .ok (some value))
      (spelled : die.unit.stringOf source.sections value = .ok bytes)
      (read : Text.Utf8.toText bytes = text) : Stores source die name (some text)

structure Bears (source : NameSource) (die : Die) (names : Naming.Names) : Prop where
  linkage : source.Stores die Dwarf.Name.linkageName names.linkage
  mipsLinkage : source.Stores die Dwarf.Name.mipsLinkageName names.mipsLinkage
  plain : source.Stores die Dwarf.Name.name names.plain

variable {source : NameSource} {die : Die} {names : Naming.Names} {name : Nat} {stored : Option String}

theorem text?_of_stores (stores : source.Stores die name stored) :
    source.text? die.unit die.entry name = .ok stored := by
  cases stores with
  | absent missing => exact bind_eq_ok.2 ⟨none, mapDwarf_eq_ok.2 missing, rfl⟩
  | present held spelled read =>
    subst read
    exact bind_eq_ok.2 ⟨some _, mapDwarf_eq_ok.2 held, bind_eq_ok.2 ⟨_, mapDwarf_eq_ok.2 spelled, rfl⟩⟩

/-- The second linkage name is left out behind the first, and would not have been taken. -/
theorem names_of_bears (bears : source.Bears die names) :
    ∃ read, source.names die.unit die.entry = .ok read ∧ read.stored? = names.stored? ∧
      read.plain = names.plain := by
  unfold NameSource.names
  rw [text?_of_stores bears.linkage, text?_of_stores bears.mipsLinkage, text?_of_stores bears.plain]
  cases linked : names.linkage with
  | some linkage => exact ⟨_, rfl, by simp [Naming.Names.stored?, linked], rfl⟩
  | none => exact ⟨_, rfl, by simp [Naming.Names.stored?, linked], rfl⟩

/-- An entry with a name of its own always gets a symbol, under every setting and over however many links
it was come to. Its language is the one that the first linkage name tells, without one that the plain name
tells, and what it shows is that name as it is stored, its readable form, or the plain name in its place. -/
theorem nameWithin_shows (source : NameSource) (die : Die) (names : Naming.Names)
    (bears : source.Bears die names) (named : names ≠ ⟨none, none, none⟩) :
    ∃ raw symbol, names.stored? = some raw ∧
      (∀ links, source.nameWithin links die.unit die.entry = .ok (some symbol)) ∧
      (∀ language, Mangling.Tells raw.toList language ↔ symbol.language = language) ∧
      ∀ text, source.naming.Shows raw names.plain text ↔ symbol.display = text := by
  obtain ⟨read, asked, same_first, same_plain⟩ := names_of_bears bears
  obtain ⟨raw, first⟩ := Option.ne_none_iff_exists'.1 (mt Naming.stored?_eq_none_iff.1 named)
  have first_read := same_first.trans first
  have carries : Carries die.entry := by
    refine (named_iff asked).1 fun nameless => ?_
    rw [Naming.stored?_eq_none_iff.2 nameless] at first_read
    cases first_read
  obtain ⟨symbol, chosen, language, shown⟩ := source.naming.choose_shows first_read
  rw [same_plain] at shown
  refine ⟨raw, symbol, first, fun links => ?_, fun told => ?_, fun text => ⟨fun shows_too => ?_, ?_⟩⟩
  · rw [nameWithin_of_carries asked carries links, chosen]
  · rw [Mangling.tells_iff, language]
  · exact Naming.shows_unique shown shows_too
  · rintro rfl
    exact shown

def markedDie : Die where
  unit := ⟨⟨0, ⟨.dwarf32, 4, 1⟩, 0, 11, []⟩, [], ⟨0, 0, 0⟩, 0, none, none⟩
  entry := ⟨11, 0x2e, false, [⟨Dwarf.Name.name, .text [0x72, 0x75, 0x6e]⟩,
    ⟨Dwarf.Name.linkageName, .text [0x3f, 0x72, 0x75, 0x6e, 0x40, 0x40, 0x59, 0x41]⟩,
    ⟨Dwarf.Name.mipsLinkageName, .text [0x5f, 0x5a, 0x33, 0x72, 0x75, 0x6e]⟩], .ok ⟨29, [0]⟩⟩

def markedNames : Naming.Names := ⟨some "?run@@YA", some "_Z3run", some "run"⟩

def markedSource : NameSource :=
  ofSections ⟨[], [], [], [], [], [], [], [], []⟩ ⟨true, .standard⟩

/-- No demangler reads the first linkage name, so the plain name is shown, and counted as C++. -/
theorem nameWithin_shows_beside :
    markedSource.Bears markedDie markedNames ∧ markedNames ≠ ⟨none, none, none⟩ ∧
      ∃ symbol, markedSource.functionName? markedDie.unit markedDie.entry = .ok (some symbol) ∧
        symbol.language = .cpp ∧ symbol.display = "run" := by
  have bears : markedSource.Bears markedDie markedNames :=
    ⟨.present rfl rfl rfl, .present rfl rfl rfl, .present rfl rfl rfl⟩
  have named : markedNames ≠ ⟨none, none, none⟩ := by decide
  obtain ⟨raw, symbol, first, found, told, shown⟩ :=
    nameWithin_shows markedSource markedDie markedNames bears named
  cases first
  have tells : Mangling.Tells "?run@@YA".toList .cpp := Mangling.tells_iff.2 (by decide)
  have object : Mangling.IsObject "?run@@YA".toList := by
    cases tells with
    | cpp object => exact object
  refine ⟨bears, named, symbol, found maxLinks, (told .cpp).1 tells, ?_⟩
  refine (shown "run").1 (.plain rfl (fun text reads => ?_) (.inr object) rfl)
  cases reads with
  | path path => exact object.1 path
  | itanium _ marked => exact absurd marked (by decide)

end NameSource

end Symbolizer
