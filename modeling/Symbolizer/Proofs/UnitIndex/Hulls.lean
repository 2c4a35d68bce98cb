import Symbolizer.Proofs.Dwarf.RangeBounds
import Symbolizer.Proofs.UnitIndex.Candidates
import Symbolizer.Proofs.UnitIndex.Owners

/-!
The intervals of the index. A unit has the smallest interval around those of its ranges that are not empty,
so the index passes over no unit that has an address among its ranges. A unit whose ranges cannot all be
decoded, or that has none, is never looked into.
-/

namespace Symbolizer.UnitIndex

open Dwarf (CompilationUnit Range Sections UnitHeader)

def HasRanges (sections : Sections) (header : UnitHeader) (ranges : List Range) : Prop :=
  ∃ unit, CompilationUnit.read sections header = .ok unit ∧ unit.ranges sections = .ok ⟨ranges, none⟩

def IsProper (range : Range) : Prop :=
  range.low < range.high

/-- The smallest interval around all proper ranges, from the start of one to the end of one. -/
structure Hull (ranges : List Range) (low high : Nat) : Prop where
  proper : low < high
  covers : ∀ range ∈ ranges, IsProper range → low ≤ range.low ∧ range.high ≤ high
  smallest : ∀ below above, (∀ range ∈ ranges, IsProper range → below ≤ range.low ∧ range.high ≤ above) →
    below ≤ low ∧ high ≤ above
  starts : ∃ range ∈ ranges, IsProper range ∧ range.low = low
  ends : ∃ range ∈ ranges, IsProper range ∧ range.high = high

variable {sections : Sections} {header : UnitHeader} {ranges rest : List Range} {range : Range}
  {low high : Nat}

theorem hull_of_attained
    (covers : ∀ range ∈ ranges, IsProper range → low ≤ range.low ∧ range.high ≤ high)
    (starts : ∃ range ∈ ranges, IsProper range ∧ range.low = low)
    (ends : ∃ range ∈ ranges, IsProper range ∧ range.high = high) : Hull ranges low high := by
  obtain ⟨first, member, proper, same⟩ := starts
  obtain ⟨last, member_too, proper_too, same_too⟩ := ends
  refine ⟨?_, covers, fun below above within => ?_, ⟨first, member, proper, same⟩,
    ⟨last, member_too, proper_too, same_too⟩⟩
  · have reached := (covers first member proper).2
    simp only [IsProper] at proper
    omega
  · exact ⟨same ▸ (within first member proper).1, same_too ▸ (within last member_too proper_too).2⟩

theorem Hull.cons_empty (hull : Hull rest low high) (empty : ¬IsProper range) :
    Hull (range :: rest) low high := by
  obtain ⟨first, member, starts⟩ := hull.starts
  obtain ⟨last, member_too, ends⟩ := hull.ends
  refine hull_of_attained ?_ ⟨first, List.mem_cons_of_mem _ member, starts⟩
    ⟨last, List.mem_cons_of_mem _ member_too, ends⟩
  exact List.forall_mem_cons.2 ⟨fun proper => absurd proper empty, hull.covers⟩

theorem hull_alone (proper : IsProper range) (others : ∀ other ∈ rest, ¬IsProper other) :
    Hull (range :: rest) range.low range.high := by
  refine hull_of_attained ?_ ⟨range, List.mem_cons_self, proper, rfl⟩ ⟨range, List.mem_cons_self, proper, rfl⟩
  refine List.forall_mem_cons.2 ⟨fun _ => ⟨Nat.le_refl _, Nat.le_refl _⟩, fun other member present => ?_⟩
  exact absurd present (others other member)

theorem Hull.cons_proper (hull : Hull rest low high) (proper : IsProper range) :
    Hull (range :: rest) (min range.low low) (max range.high high) := by
  obtain ⟨first, member, proper_first, starts⟩ := hull.starts
  obtain ⟨last, member_too, proper_last, ends⟩ := hull.ends
  refine hull_of_attained ?_ ?_ ?_
  · refine List.forall_mem_cons.2 ⟨fun _ => by omega, fun other inside proper_other => ?_⟩
    have within := hull.covers other inside proper_other
    omega
  · rcases Nat.le_total range.low low with own | other
    · exact ⟨range, List.mem_cons_self, proper, (Nat.min_eq_left own).symm⟩
    · exact ⟨first, List.mem_cons_of_mem _ member, proper_first, starts.trans (Nat.min_eq_right other).symm⟩
  · rcases Nat.le_total high range.high with own | other
    · exact ⟨range, List.mem_cons_self, proper, (Nat.max_eq_left own).symm⟩
    · exact ⟨last, List.mem_cons_of_mem _ member_too, proper_last, ends.trans (Nat.max_eq_right other).symm⟩

/-- What the fold over the ranges gives: nothing without a proper range, else their hull. -/
theorem cover_cases (ranges : List Range) :
    (cover ranges = none ∧ ∀ range ∈ ranges, ¬IsProper range) ∨
      ∃ low high, cover ranges = some (low, high) ∧ Hull ranges low high := by
  induction ranges with
  | nil => exact .inl ⟨rfl, nofun⟩
  | cons range rest ih =>
    rw [cover]
    split
    next backward =>
      have empty : ¬IsProper range := Nat.not_lt.2 backward
      rcases ih with ⟨none, others⟩ | ⟨low, high, found, hull⟩
      · exact .inl ⟨none, List.forall_mem_cons.2 ⟨empty, others⟩⟩
      · exact .inr ⟨low, high, found, hull.cons_empty empty⟩
    next forward =>
      have proper : IsProper range := Nat.not_le.1 forward
      rcases ih with ⟨none, others⟩ | ⟨low, high, found, hull⟩
      · exact .inr ⟨range.low, range.high, by rw [none], hull_alone proper others⟩
      · exact .inr ⟨_, _, by rw [found], hull.cons_proper proper⟩

/-! The interval of a unit. -/

theorem rangeOf?_of_hasRanges (has : HasRanges sections header ranges) :
    rangeOf? sections header =
      (cover ranges).map fun (low, high) => ⟨UInt64.ofNat low, UInt64.ofNat high⟩ := by
  obtain ⟨unit, reads, decoded⟩ := has
  simp only [rangeOf?, reads, decoded, Except.toOption, Option.bind_eq_bind, Option.bind_some]
  cases cover ranges <;> rfl

theorem hasRanges_of_rangeOf? {interval : Interval} (found : rangeOf? sections header = some interval) :
    ∃ ranges, HasRanges sections header ranges := by
  simp only [rangeOf?, Option.bind_eq_bind, Option.bind_eq_some_iff, toOption_eq_some_iff] at found
  obtain ⟨unit, reads, list, decoded, _, whole, _⟩ := found
  have no_fault : list.fault = none := by
    simpa [guard] using whole
  obtain ⟨ranges, fault⟩ := list
  cases no_fault
  exact ⟨ranges, unit, reads, decoded⟩

/-- The interval of a unit is missing where no range is proper, and else the hull of its ranges. The hull has
the bounds of two of them, so it is no wider than an address. -/
theorem rangeOf?_cases (member : header ∈ UnitHeader.all sections.info)
    (has : HasRanges sections header ranges) :
    (rangeOf? sections header = none ∧ ∀ range ∈ ranges, ¬IsProper range) ∨
      ∃ interval, rangeOf? sections header = some interval ∧
        Hull ranges interval.low.toNat interval.high.toNat := by
  rw [rangeOf?_of_hasRanges has]
  rcases cover_cases ranges with ⟨none, others⟩ | ⟨low, high, found, hull⟩
  · rw [none]
    exact .inl ⟨rfl, others⟩
  · rw [found]
    refine .inr ⟨_, rfl, ?_⟩
    obtain ⟨unit, reads, decoded⟩ := has
    have fits := CompilationUnit.ranges_fits member reads decoded
    obtain ⟨first, inside, _, starts⟩ := hull.starts
    obtain ⟨last, inside_too, _, ends⟩ := hull.ends
    have low_fits : low < UInt64.size := starts ▸ (fits first inside).1
    have high_fits : high < UInt64.size := ends ▸ (fits last inside_too).2
    change Hull ranges (UInt64.ofNat low).toNat (UInt64.ofNat high).toNat
    rwa [UInt64.toNat_ofNat_of_lt' low_fits, UInt64.toNat_ofNat_of_lt' high_fits]

variable {slot : Nat} {entry : UnitEntry} {address : UInt64}

theorem getElem?_build :
    (build sections).entries[slot]? = some entry ↔
      ∃ header, (UnitHeader.all sections.info)[slot]? = some header ∧
        entry = ⟨header.offset, rangeOf? sections header⟩ := by
  rw [entries_build, List.getElem?_map, Option.map_eq_some_iff]
  exact exists_congr fun header => and_congr_right fun _ => eq_comm

theorem Hull.contains {interval : Interval} (hull : Hull ranges interval.low.toNat interval.high.toNat)
    (member : range ∈ ranges) (reached : range.low ≤ address.toNat) (below : address.toNat < range.high) :
    interval.low ≤ address ∧ address < interval.high := by
  have within := hull.covers range member (Nat.lt_of_le_of_lt reached below)
  rw [UInt64.le_iff_toNat_le, UInt64.lt_iff_toNat_lt]
  omega

structure Covers (index : UnitIndex) (slot : Nat) (entry : UnitEntry) (ranges : List Range) : Prop where
  listed : index.entries[slot]? = some entry
  empty : entry.range = none ↔ ∀ range ∈ ranges, ¬IsProper range
  hull : ∀ interval, entry.range = some interval →
    interval.low < interval.high ∧ Hull ranges interval.low.toNat interval.high.toNat
  candidate : ∀ range ∈ ranges, ∀ address : UInt64,
    range.low ≤ address.toNat → address.toNat < range.high → (slot, entry) ∈ index.candidates address

theorem covers_build (found : (UnitHeader.all sections.info)[slot]? = some header)
    (has : HasRanges sections header ranges) :
    (build sections).Covers slot ⟨header.offset, rangeOf? sections header⟩ ranges := by
  have listed := getElem?_build.2 ⟨header, found, rfl⟩
  rcases rangeOf?_cases (List.mem_of_getElem? found) has with ⟨none, others⟩ | ⟨interval, some, hull⟩
  · refine ⟨listed, iff_of_true none others, fun interval range => ?_, fun range member address low high => ?_⟩
    · rw [none] at range
      cases range
    · exact absurd (Nat.lt_of_le_of_lt low high) (others range member)
  · obtain ⟨first, inside, proper, _⟩ := hull.starts
    refine ⟨listed, iff_of_false ?_ (fun none => none first inside proper), ?_, ?_⟩
    · rw [some]
      exact nofun
    · intro other range
      cases some.symm.trans range
      exact ⟨UInt64.lt_iff_toNat_lt.2 hull.proper, hull⟩
    · intro range member address low high
      exact mem_candidates.2 ⟨listed, (UnitEntry.contains_iff _ _).2 ⟨interval, some, hull.contains member low high⟩⟩

theorem hasRanges_of_candidate (candidate : (slot, entry) ∈ (build sections).candidates address) :
    ∃ header ranges, (UnitHeader.all sections.info)[slot]? = some header ∧
      HasRanges sections header ranges ∧ ∃ range ∈ ranges, IsProper range := by
  obtain ⟨listed, contains⟩ := mem_candidates.1 candidate
  obtain ⟨interval, range, _⟩ := (UnitEntry.contains_iff entry address).1 contains
  obtain ⟨header, found, rfl⟩ := getElem?_build.1 listed
  obtain ⟨ranges, has⟩ := hasRanges_of_rangeOf? range
  refine ⟨header, ranges, found, has, ?_⟩
  obtain ⟨_, hull⟩ := (covers_build found has).hull interval range
  obtain ⟨first, inside, proper, _⟩ := hull.starts
  exact ⟨first, inside, proper⟩

/-- In the index of every section a unit whose ranges can be decoded has their hull for its interval, which
is missing only where no range is proper, and is a candidate for each address in one of them. Only units whose
ranges can be decoded are candidates, in the order of their slots. The lowest address is that of the lowest
interval. -/
theorem build_hulls (sections : Sections) :
    let index := build sections
    (∀ slot header ranges, (UnitHeader.all sections.info)[slot]? = some header →
      HasRanges sections header ranges →
        ∃ entry, entry.offset = header.offset ∧ index.Covers slot entry ranges) ∧
    (∀ address slot entry, (slot, entry) ∈ index.candidates address →
      ∃ header ranges, (UnitHeader.all sections.info)[slot]? = some header ∧
        HasRanges sections header ranges ∧ ∃ range ∈ ranges, IsProper range) ∧
    (∀ address, (index.candidates address).Pairwise fun one other => one.1 < other.1) ∧
    (∀ low, index.minLow? = some low ↔
      (∃ entry ∈ index.entries, ∃ interval, entry.range = some interval ∧ interval.low = low) ∧
      ∀ entry ∈ index.entries, ∀ interval, entry.range = some interval → low ≤ interval.low) ∧
    (index.minLow? = none ↔ ∀ entry ∈ index.entries, entry.range = none) := by
  intro index
  refine ⟨fun slot header ranges found has => ?_, fun address slot entry => hasRanges_of_candidate,
    candidates_pairwise index, fun low => minLow?_eq_some_iff, minLow?_eq_none_iff⟩
  exact ⟨_, rfl, covers_build found has⟩

/-- A unit with a list of three ranges that is not in order, one with an empty range, and one whose list would
start behind the section. -/
def spread : Sections where
  info := [0x0c, 0, 0, 0, 4, 0, 0, 0, 0, 0, 1, 1, 0, 0, 0, 0,
    0x0a, 0, 0, 0, 4, 0, 0, 0, 0, 0, 1, 2, 0x24, 0,
    0x0c, 0, 0, 0, 4, 0, 0, 0, 0, 0, 1, 1, 99, 0, 0, 0]
  abbreviations := [1, 0x11, 0, 0x55, 0x17, 0, 0, 2, 0x11, 0, 0x11, 1, 0x12, 0x0b, 0, 0, 0]
  line := []
  str := []
  lineStr := []
  strOffsets := []
  addr := []
  ranges := [0x20, 0x30, 0x10, 0x18, 0x28, 0x2c, 0, 0]
  rnglists := []

def spreadHeader (offset : Nat) (entries : Bytes) : UnitHeader :=
  ⟨offset, ⟨.dwarf32, 4, 1⟩, 0, 11, entries⟩

theorem hasRanges_spread :
    HasRanges spread (spreadHeader 0 [1, 0, 0, 0, 0]) [⟨0x20, 0x30⟩, ⟨0x10, 0x18⟩, ⟨0x28, 0x2c⟩] :=
  ⟨_, rfl, rfl⟩

theorem hasRanges_spread_empty : HasRanges spread (spreadHeader 16 [2, 0x24, 0]) [⟨0x24, 0x24⟩] :=
  ⟨_, rfl, rfl⟩

/-- The hull of the three ranges is the only interval of the index, and an address in the overlap of two of
them is looked up there. -/
theorem build_hulls_spread :
    build spread = ⟨[⟨0, some ⟨0x10, 0x30⟩⟩, ⟨16, none⟩, ⟨30, none⟩]⟩ ∧
      Hull [⟨0x20, 0x30⟩, ⟨0x10, 0x18⟩, ⟨0x28, 0x2c⟩] 0x10 0x30 ∧
      (0, ⟨0, some ⟨0x10, 0x30⟩⟩) ∈ (build spread).candidates 0x29 ∧
      (∀ range ∈ [(⟨0x24, 0x24⟩ : Range)], ¬IsProper range) ∧
      (build spread).minLow? = some 0x10 := by
  have index : build spread = ⟨[⟨0, some ⟨0x10, 0x30⟩⟩, ⟨16, none⟩, ⟨30, none⟩]⟩ := by cbv
  obtain ⟨hulls, _, _, lowest, _⟩ := build_hulls spread
  obtain ⟨listed, place, covered⟩ := hulls 0 _ _ rfl hasRanges_spread
  obtain ⟨empty, _, blank⟩ := hulls 1 _ _ rfl hasRanges_spread_empty
  have entry : listed = ⟨0, some ⟨0x10, 0x30⟩⟩ := by
    have here := covered.listed
    rw [index] at here
    exact (Option.some.inj here).symm
  have none : empty.range = none := by
    have here := blank.listed
    rw [index] at here
    exact congrArg UnitEntry.range (Option.some.inj here).symm
  subst entry
  refine ⟨index, (covered.hull _ rfl).2, ?_, blank.empty.1 none, ?_⟩
  · exact covered.candidate ⟨0x28, 0x2c⟩ (by simp) 0x29 (by decide) (by decide)
  · refine (lowest 0x10).2 ?_
    rw [index]
    exact ⟨⟨_, List.mem_cons_self, _, rfl, rfl⟩, by simp⟩

end Symbolizer.UnitIndex
