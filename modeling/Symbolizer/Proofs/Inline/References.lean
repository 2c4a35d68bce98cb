import Symbolizer.Proofs.Inline.Links

/-!
References that count from the start of the section. Units stand one behind the other, so an offset lies
among the entries of one unit, in the header of one, or behind the last unit of the index. A reference to
an entry of a unit is read in that unit, and names what a reference from within the unit names; a reference
to anything else names nothing.
-/

namespace Symbolizer

open Dwarf (CompilationUnit Entry Sections UnitHeader)

namespace Dwarf.UnitHeader

/-- The offset lies in the header of a unit, or behind the last unit whose header could be read. -/
inductive Outside (info : Bytes) (offset : Nat) : Prop where
  | heading {header : UnitHeader} (member : header ∈ all info) (reached : header.offset ≤ offset)
      (short : offset < header.offset + header.headerSize)
  | behind (beyond : placeBehind info (all info).length ≤ offset)

theorem outside_iff (info : Bytes) (offset : Nat) :
    Outside info offset ↔ ∀ header ∈ all info, header.local? offset = none := by
  have unheld (header : UnitHeader) : header.local? offset = none ↔
      ¬(header.offset + header.headerSize ≤ offset ∧ offset < header.finish) := by
    rw [← UnitIndex.holds_iff, Option.not_isSome_iff_eq_none]
  simp only [unheld]
  constructor
  · rintro (⟨member, reached, short⟩ | beyond) header member_too ⟨entered, below⟩
    · have inside : offset < finish _ := Nat.lt_of_lt_of_le short (Nat.le_add_right _ _)
      have same := eq_of_within member_too member ⟨by omega, below⟩ ⟨reached, inside⟩
      subst same
      omega
    · have before := (exists_mem_all_iff info offset).1 ⟨header, member_too, by omega, below⟩
      omega
  · intro unheld
    by_cases beyond : placeBehind info (all info).length ≤ offset
    · exact .behind beyond
    · obtain ⟨header, member, reached, below⟩ := (exists_mem_all_iff info offset).2 (by omega)
      have outside := unheld header member
      exact .heading member reached (by omega)

end Dwarf.UnitHeader

namespace NameSource

/-- An offset of the section lies among the entries of a unit of the index that can be read, so far behind
the start of its header. -/
structure Holds (source : NameSource) (unit : CompilationUnit) (offset place : Nat) : Prop where
  indexed : ∃ entry ∈ source.index.entries,
    UnitHeader.atOffset source.sections.info entry.offset = .ok unit.header
  reads : CompilationUnit.read source.sections unit.header = .ok unit
  holds : unit.header.local? offset = some place

/-- The name of an entry that is so many links away from the one whose name is asked for. -/
def nameAt (source : NameSource) (depth : Nat) (unit : CompilationUnit) (entry : Entry) :
    Except Fault (Option SymbolName) :=
  if depth ≤ maxLinks then source.nameWithin (maxLinks - depth) unit entry else .ok none

variable {source : NameSource} {unit own owner other : CompilationUnit} {entry : Entry}
  {offset place elsewhere : Nat} {kind : LinkKind}
  {nameOf : CompilationUnit → Entry → Except Fault (Option SymbolName)}

theorem functionName?_eq_nameAt (source : NameSource) (unit : CompilationUnit) (entry : Entry) :
    source.functionName? unit entry = source.nameAt 0 unit entry := rfl

theorem nameAt_of_le {depth : Nat} (near : depth ≤ maxLinks) :
    source.nameAt depth unit entry = source.ownOrBorrowed? (source.nameAt (depth + 1)) unit entry := by
  unfold nameAt
  rw [if_pos near]
  by_cases last : depth = maxLinks
  · subst last
    rfl
  · have left : maxLinks - depth = maxLinks - (depth + 1) + 1 := by omega
    have nearer : depth + 1 ≤ maxLinks := by omega
    rw [left, nameWithin]
    congr 1
    funext unit entry
    rw [if_pos nearer]

/-! Where references lead. -/

theorem member_of_holds (built : source.index = UnitIndex.build source.sections)
    (holds : source.Holds owner offset place) : owner.header ∈ UnitHeader.all source.sections.info := by
  obtain ⟨entry, listed, headed⟩ := holds.indexed
  exact (header_of_listed built listed headed).1

theorem Holds.unique (built : source.index = UnitIndex.build source.sections)
    (holds : source.Holds owner offset place) (holds_too : source.Holds other offset elsewhere) :
    other = owner ∧ elsewhere = place := by
  have held : (owner.header.local? offset).isSome := by rw [holds.holds]; rfl
  have held_too : (other.header.local? offset).isSome := by rw [holds_too.holds]; rfl
  have same := UnitIndex.eq_of_holds (member_of_holds built holds_too) (member_of_holds built holds)
    held_too held
  have reads := holds_too.reads
  have found := holds_too.holds
  rw [same, holds.reads] at reads
  rw [same, holds.holds] at found
  exact ⟨(Except.ok.inj reads).symm, (Option.some.inj found).symm⟩

theorem linked?_infoRef (refers : entry.attribute? kind.attribute = .ok (some (.infoRef offset))) :
    source.linked? nameOf unit entry kind.attribute = (do
      match ← source.foreign? unit offset with
      | none => return none
      | some (unit, entry) => nameOf unit entry) := by
  have asked : attribute? entry kind.attribute = .ok (some (.infoRef offset)) := mapDwarf_eq_ok.2 refers
  unfold linked? follow?
  rw [asked]
  rfl

theorem linked?_unitRef (refers : entry.attribute? kind.attribute = .ok (some (.unitRef place))) :
    source.linked? nameOf unit entry kind.attribute =
      mapDwarf "following origin" (unit.entryAt place) >>= nameOf unit := by
  have asked : attribute? entry kind.attribute = .ok (some (.unitRef place)) := mapDwarf_eq_ok.2 refers
  unfold linked? follow?
  simp only [asked, bind, Except.bind]
  cases unit.entryAt place <;> rfl

theorem linked?_eq_of_foreign? {near far : Entry} {first second : LinkKind}
    (found : source.foreign? own offset =
      (mapDwarf "following origin" (owner.entryAt place)).map fun entry => some (owner, entry))
    (refers : near.attribute? first.attribute = .ok (some (.infoRef offset)))
    (refers_too : far.attribute? second.attribute = .ok (some (.unitRef place))) :
    source.linked? nameOf own near first.attribute = source.linked? nameOf owner far second.attribute := by
  rw [linked?_infoRef refers, linked?_unitRef refers_too, found]
  cases owner.entryAt place <;> rfl

theorem linked?_of_nowhere (nowhere : source.foreign? own offset = .ok none)
    (refers : entry.attribute? kind.attribute = .ok (some (.infoRef offset))) :
    source.linked? nameOf own entry kind.attribute = .ok none := by
  rw [linked?_infoRef refers, nowhere]
  rfl

/-- In every section, from every unit of it and for every offset: when a unit holds the offset, it is the only
one that does. What is read there is the entry of that unit, and its name, however many links away, is the
one that a reference from within that unit to the same place gives, with the same fault if it gives one.
When the offset is in a header or behind the units, which is whenever no unit has it among its entries,
nothing is read and there is no name. -/
theorem foreign?_eq_within (sections : Sections) (naming : Naming) {own : CompilationUnit}
    (reads : (ofSections sections naming).Reads own) (offset : Nat) :
    let source := ofSections sections naming
    (∀ owner place, source.Holds owner offset place →
      (∀ other elsewhere, source.Holds other offset elsewhere → other = owner ∧ elsewhere = place) ∧
      source.foreign? own offset =
        (mapDwarf "following origin" (owner.entryAt place)).map (fun entry => some (owner, entry)) ∧
      ∀ (depth : Nat) (near far : Entry) (first second : LinkKind),
        near.attribute? first.attribute = .ok (some (.infoRef offset)) →
        far.attribute? second.attribute = .ok (some (.unitRef place)) →
          source.linked? (source.nameAt depth) own near first.attribute =
            source.linked? (source.nameAt depth) owner far second.attribute) ∧
    (UnitHeader.Outside sections.info offset →
      source.foreign? own offset = .ok none ∧
      ∀ (depth : Nat) (near : Entry) (first : LinkKind),
        near.attribute? first.attribute = .ok (some (.infoRef offset)) →
          source.linked? (source.nameAt depth) own near first.attribute = .ok none) ∧
    (UnitHeader.Outside sections.info offset ↔
      ∀ header ∈ UnitHeader.all sections.info, header.local? offset = none) := by
  intro source
  refine ⟨fun owner place holds => ?_, fun outside => ?_, UnitHeader.outside_iff sections.info offset⟩
  · have found := foreign?_of_holds rfl reads (member_of_holds rfl holds) holds.holds holds.reads
    refine ⟨fun other elsewhere => holds.unique rfl, found, ?_⟩
    intro depth near far first second refers refers_too
    exact linked?_eq_of_foreign? found refers refers_too
  · have nowhere : source.foreign? own offset = .ok none :=
      foreign?_of_not_holds rfl reads ((UnitHeader.outside_iff sections.info offset).1 outside)
    exact ⟨nowhere, fun depth near first refers => linked?_of_nowhere nowhere refers⟩

/-- Two units and two bytes behind them. The entry of the first has its specification at offset 30, where the
second has an entry with a name, which is also the origin of the entry behind it. -/
def crossing : Sections where
  info := [0x0e, 0, 0, 0, 4, 0, 0, 0, 0, 0, 1, 1, 2, 30, 0, 0, 0, 0,
    0x0e, 0, 0, 0, 4, 0, 0, 0, 0, 0, 1, 1, 3, 0x66, 0, 4, 12, 0, 1, 2]
  abbreviations := [1, 0x11, 1, 0, 0, 2, 0x2e, 0, 0x47, 0x10, 0, 0, 3, 0x2e, 0, 3, 8, 0, 0,
    4, 0x2e, 0, 0x31, 0x11, 0, 0, 0]
  line := []
  str := []
  lineStr := []
  strOffsets := []
  addr := []
  ranges := []
  rnglists := []

abbrev crossingSource : NameSource := ofSections crossing ⟨false, ⟨fun _ => none, fun _ => none⟩⟩

def crossingUnit (offset : Nat) (entries : Bytes) : CompilationUnit where
  header := ⟨offset, ⟨.dwarf32, 4, 1⟩, 0, 11, entries⟩
  abbreviations := [⟨1, 0x11, true, []⟩, ⟨2, 0x2e, false, [⟨0x47, 0x10, none⟩]⟩,
    ⟨3, 0x2e, false, [⟨3, 8, none⟩]⟩, ⟨4, 0x2e, false, [⟨0x31, 0x11, none⟩]⟩]
  bases := ⟨0, 0, 0⟩
  lowPc := 0
  compDir := none
  lineHeader := none

def crossingFirst : CompilationUnit := crossingUnit 0 [1, 2, 30, 0, 0, 0, 0]

def crossingSecond : CompilationUnit := crossingUnit 18 [1, 3, 0x66, 0, 4, 12, 0]

def crossingAbroad : Entry := ⟨12, 0x2e, false, [⟨0x47, .infoRef 30⟩], .ok ⟨17, [0]⟩⟩

def crossingHome : Entry := ⟨15, 0x2e, false, [⟨0x31, .unitRef 12⟩], .ok ⟨17, [0]⟩⟩

/-- Sixteen links away the name is still found over both references. Offsets in the header of the second
unit and behind it name nothing. -/
theorem foreign?_eq_within_crossing :
    crossingSource.Reads crossingFirst ∧ crossingSource.Holds crossingSecond 30 12 ∧
      crossingFirst.entryAt 12 = .ok crossingAbroad ∧ crossingSecond.entryAt 15 = .ok crossingHome ∧
      crossingSource.linked? (crossingSource.nameAt 16) crossingFirst crossingAbroad
        LinkKind.specification.attribute = .ok (some ⟨"f", none, .c⟩) ∧
      UnitHeader.Outside crossing.info 20 ∧ crossingSource.foreign? crossingFirst 20 = .ok none ∧
      UnitHeader.Outside crossing.info 36 ∧ crossingSource.foreign? crossingFirst 36 = .ok none := by
  have reads : crossingSource.Reads crossingFirst := ⟨crossingFirst.header, List.mem_cons_self, rfl⟩
  have holds : crossingSource.Holds crossingSecond 30 12 :=
    ⟨⟨_, List.mem_cons_of_mem _ List.mem_cons_self, rfl⟩, rfl, rfl⟩
  have member : crossingSecond.header ∈ UnitHeader.all crossing.info :=
    List.mem_cons_of_mem _ List.mem_cons_self
  have heading : UnitHeader.Outside crossing.info 20 := .heading member (by decide) (by decide)
  have behind : UnitHeader.Outside crossing.info 36 := .behind (Nat.le_refl 36)
  obtain ⟨across, _⟩ := foreign?_eq_within crossing _ reads 30
  obtain ⟨_, in_header, _⟩ := foreign?_eq_within crossing _ reads 20
  obtain ⟨_, beyond, _⟩ := foreign?_eq_within crossing _ reads 36
  obtain ⟨_, _, same⟩ := across crossingSecond 12 holds
  refine ⟨reads, holds, rfl, rfl, ?_, heading, (in_header heading).1, behind, (beyond behind).1⟩
  calc crossingSource.linked? (crossingSource.nameAt 16) crossingFirst crossingAbroad
        LinkKind.specification.attribute
      = crossingSource.linked? (crossingSource.nameAt 16) crossingSecond crossingHome
          LinkKind.origin.attribute := same 16 crossingAbroad crossingHome .specification .origin rfl rfl
    _ = .ok (some ⟨"f", none, .c⟩) := by cbv

end NameSource

end Symbolizer
