import Symbolizer.Proofs.Inline.Links
import Symbolizer.Proofs.Session.Lookup

/-!
Sections whose end is damaged. Whatever stands behind the first units, whether more units, garbage or a
header that cannot be read, these units keep their slots, offsets and intervals, and an address that one of
them answers for has the same frames. Only a name may come from elsewhere: a link over the whole section
must not lead behind them.
-/

namespace Symbolizer

open Dwarf (CompilationUnit Entry Forest Sections UnitHeader)

/-! What a unit says of itself is read from its own bytes and the other sections. -/

theorem Dwarf.RangeList.decode_info (sections : Sections) (info : Bytes) (unit : CompilationUnit)
    (fuel base : Nat) (cursor : Cursor) :
    RangeList.decode { sections with info } unit fuel base cursor =
      RangeList.decode sections unit fuel base cursor := by
  induction fuel generalizing base cursor with
  | zero => rfl
  | succ fuel ih =>
    have read : RangeList.interpret { sections with info } unit = RangeList.interpret sections unit := rfl
    simp only [RangeList.decode, read, ih]

theorem Dwarf.RangeList.ofValue?_info (sections : Sections) (info : Bytes) (unit : CompilationUnit)
    (value : Value) :
    RangeList.ofValue? { sections with info } unit value = RangeList.ofValue? sections unit value := by
  have list (offset : Nat) : RangeList.atOffset { sections with info } unit offset =
      RangeList.atOffset sections unit offset := by
    simp only [RangeList.atOffset, RangeList.decode_info]
  have place (index : Nat) : RangeList.indexedOffset { sections with info } unit index =
      RangeList.indexedOffset sections unit index := rfl
  cases value <;> simp only [RangeList.ofValue?, list, place]

theorem Dwarf.CompilationUnit.entryRanges_info (sections : Sections) (info : Bytes) (unit : CompilationUnit)
    (entry : Entry) :
    unit.entryRanges { sections with info } entry = unit.entryRanges sections entry := by
  have addressed (value : Value) : unit.requiredAddress { sections with info } value =
      unit.requiredAddress sections value := rfl
  have listed : RangeList.ofValue? { sections with info } unit = RangeList.ofValue? sections unit :=
    funext fun value => RangeList.ofValue?_info sections info unit value
  have from_bounds (attributes : List Attribute) (bounds : PcBounds) :
      unit.rangesFrom { sections with info } entry.stop bounds attributes =
        unit.rangesFrom sections entry.stop bounds attributes := by
    induction attributes generalizing bounds with
    | nil => rfl
    | cons attr rest ih => simp only [CompilationUnit.rangesFrom, addressed, listed, ih]
  exact from_bounds entry.attributes ⟨none, none, none⟩

theorem UnitIndex.entryOf_info (sections : Sections) (info : Bytes) (header : UnitHeader) :
    UnitIndex.entryOf { sections with info } header = UnitIndex.entryOf sections header := by
  have read : CompilationUnit.read { sections with info } header = CompilationUnit.read sections header := rfl
  simp only [UnitIndex.entryOf, UnitIndex.rangeOf?, read, CompilationUnit.ranges,
    Dwarf.CompilationUnit.entryRanges_info]

/-- The sections with other bytes behind the first so many units. -/
def Dwarf.Sections.withTail (sections : Sections) (count : Nat) (tail : Bytes) : Sections :=
  { sections with info := sections.info.take (UnitHeader.placeBehind sections.info count) ++ tail }

/-- No link of the entry counts from the start of the section and leads to the limit or behind it. -/
def Die.LinksBelow (limit : Nat) (die : Die) : Prop :=
  ∀ (kind : LinkKind) (offset : Nat),
    die.entry.attribute? kind.attribute = .ok (some (.infoRef offset)) → offset < limit

namespace NameSource

/-- The search for a name comes to an entry: over the origin of an entry without names, and over its
specification when nothing was found over the origin. -/
inductive LooksAt (source : NameSource) : Nat → Die → Die → Prop where
  | here (links : Nat) (die : Die) : LooksAt source links die die
  | origin {links : Nat} {die next last : Die}
      (nameless : source.names die.unit die.entry = .ok ⟨none, none, none⟩)
      (followed : source.follow? die.unit die.entry Dwarf.Name.abstractOrigin =
        .ok (some (next.unit, next.entry)))
      (rest : LooksAt source links next last) : LooksAt source (links + 1) die last
  | specification {links : Nat} {die next last : Die}
      (nameless : source.names die.unit die.entry = .ok ⟨none, none, none⟩)
      (fruitless : source.linked? (source.nameWithin links) die.unit die.entry Dwarf.Name.abstractOrigin =
        .ok none)
      (followed : source.follow? die.unit die.entry Dwarf.Name.specification =
        .ok (some (next.unit, next.entry)))
      (rest : LooksAt source links next last) : LooksAt source (links + 1) die last

end NameSource

namespace ScopeSource

inductive AsksName (source : ScopeSource) : Forest → Entry → Prop where
  | inside {above entry : Entry} {entered : Bool} {children next : Forest}
      (asks : AsksName source children entry) : AsksName source (.node above entered children next) entry
  | scope {entry : Entry} {children next : Forest} {inner : List Scope}
      (goes_on : source.scopesOf children = .ok (inner, false)) (listed : isScope entry = true) :
      AsksName source (.node entry true children next) entry
  | behind {before entry : Entry} {entered : Bool} {children next : Forest} {inner : List Scope}
      (goes_on : source.scopesOf children = .ok (inner, false))
      (passes : (entered && isSubprogram before) = false)
      (reads : (entered && isScope before) = true → ∃ scope, source.scopeOf before false = .ok scope)
      (asks : AsksName source next entry) : AsksName source (.node before entered children next) entry

end ScopeSource

namespace NameSource

/-- The entries that the frames of an address take names from, or look at in vain. -/
def Follows (source : NameSource) (unit : CompilationUnit) (lines : LineTable) (address : UInt64)
    (last : Die) : Prop :=
  let scopes : ScopeSource := { source with unit, lines }
  ∃ forest entry, unit.forest (scopes.enters address) = .ok forest ∧ scopes.AsksName forest entry ∧
    source.LooksAt maxLinks ⟨unit, entry⟩ last

end NameSource

variable {sections : Sections} {count : Nat} {tail : Bytes} {naming : Naming}

/-! The index. -/

theorem units_withTail (sections : Sections) (count : Nat) (tail : Bytes) :
    ∃ others, UnitHeader.all (sections.withTail count tail).info =
        (UnitHeader.all sections.info).take count ++ others ∧
      ∀ header ∈ others, UnitHeader.placeBehind sections.info count ≤ header.offset := by
  obtain ⟨others, split, _, beyond⟩ := UnitHeader.all_replaced sections.info count tail
  exact ⟨others, split, beyond⟩

theorem placeBehind_le {header : UnitHeader} (member : header ∈ (UnitHeader.all sections.info).drop count) :
    UnitHeader.placeBehind sections.info count ≤ header.offset := by
  -- The section is its own front with its own tail.
  have same : (sections.withTail count (sections.info.drop (UnitHeader.placeBehind sections.info count))).info =
      sections.info := List.take_append_drop _ _
  obtain ⟨others, split, beyond⟩ := units_withTail sections count
    (sections.info.drop (UnitHeader.placeBehind sections.info count))
  rw [same] at split
  apply beyond
  rw [List.append_cancel_left ((List.take_append_drop _ _).trans split)] at member
  exact member

theorem entryOf_withTail (sections : Sections) (count : Nat) (tail : Bytes) :
    UnitIndex.entryOf (sections.withTail count tail) = UnitIndex.entryOf sections :=
  funext fun header => UnitIndex.entryOf_info sections _ header

theorem build_withTail (enough : count ≤ (UnitHeader.all sections.info).length) :
    (UnitIndex.build (sections.withTail count tail)).entries.take count =
      (UnitIndex.build sections).entries.take count := by
  obtain ⟨others, split, _⟩ := units_withTail sections count tail
  have whole : ((UnitHeader.all sections.info).take count).length = count := List.length_take_of_le enough
  calc (UnitIndex.build (sections.withTail count tail)).entries.take count
      = ((UnitHeader.all (sections.withTail count tail).info).take count).map
          (UnitIndex.entryOf (sections.withTail count tail)) := by
        rw [UnitIndex.entries_build, List.map_take]
    _ = ((UnitHeader.all sections.info).take count).map (UnitIndex.entryOf sections) := by
        rw [split, List.take_left' whole, entryOf_withTail]
    _ = (UnitIndex.build sections).entries.take count := by
        rw [UnitIndex.entries_build, List.map_take]

theorem getElem?_build_withTail (enough : count ≤ (UnitHeader.all sections.info).length) {slot : Nat}
    (early : slot < count) :
    (UnitIndex.build (sections.withTail count tail)).entries[slot]? =
      (UnitIndex.build sections).entries[slot]? := by
  rw [← List.getElem?_take_of_lt early, build_withTail enough, List.getElem?_take_of_lt early]

theorem unitAtOrBefore?_withTail (tail : Bytes) {offset : Nat}
    (near : offset < UnitHeader.placeBehind sections.info count) :
    (UnitIndex.build (sections.withTail count tail)).unitAtOrBefore? offset =
        (UnitIndex.build sections).unitAtOrBefore? offset ∧
      ∀ owner ∈ (UnitIndex.build sections).unitAtOrBefore? offset,
        ∃ header ∈ (UnitHeader.all sections.info).take count,
          owner = UnitIndex.entryOf sections header := by
  obtain ⟨others, split, beyond⟩ := units_withTail sections count tail
  let front := ((UnitHeader.all sections.info).take count).map (UnitIndex.entryOf sections)
  have far {back : List UnitHeader}
      (behind : ∀ header ∈ back, UnitHeader.placeBehind sections.info count ≤ header.offset) :
      UnitIndex.unitAtOrBefore? ⟨front ++ back.map (UnitIndex.entryOf sections)⟩ offset =
        UnitIndex.unitAtOrBefore? ⟨front⟩ offset := by
    apply UnitIndex.unitAtOrBefore?_append
    intro entry member
    obtain ⟨header, inside, rfl⟩ := List.mem_map.1 member
    exact Nat.lt_of_lt_of_le near (behind header inside)
  have new : UnitIndex.build (sections.withTail count tail) =
      ⟨front ++ others.map (UnitIndex.entryOf sections)⟩ := by
    rw [← List.map_append, ← split, ← entryOf_withTail sections count tail]
    rfl
  have old : UnitIndex.build sections =
      ⟨front ++ ((UnitHeader.all sections.info).drop count).map (UnitIndex.entryOf sections)⟩ := by
    rw [← List.map_append, List.take_append_drop]
    rfl
  have chosen : (UnitIndex.build sections).unitAtOrBefore? offset =
      UnitIndex.unitAtOrBefore? ⟨front⟩ offset := by
    rw [old, far fun header member => placeBehind_le member]
  refine ⟨?_, fun owner found => ?_⟩
  · rw [chosen, new, far beyond]
  · rw [chosen] at found
    obtain ⟨header, member, same⟩ := List.mem_map.1 (UnitIndex.mem_of_unitAtOrBefore? found)
    exact ⟨header, member, same.symm⟩

theorem atOffset_withTail {header : UnitHeader} (member : header ∈ (UnitHeader.all sections.info).take count) :
    UnitHeader.atOffset (sections.withTail count tail).info header.offset =
      UnitHeader.atOffset sections.info header.offset := by
  obtain ⟨others, split, _⟩ := units_withTail sections count tail
  have stays : header ∈ UnitHeader.all (sections.withTail count tail).info := by
    rw [split]
    exact List.mem_append_left _ member
  rw [UnitHeader.atOffset_of_mem_all stays, UnitHeader.atOffset_of_mem_all (List.mem_of_mem_take member)]

/-! Names. -/

namespace NameSource

variable {die next : Die} {links : Nat}

theorem foreign?_withTail {unit : CompilationUnit} {offset : Nat}
    (near : offset < UnitHeader.placeBehind sections.info count) :
    (ofSections (sections.withTail count tail) naming).foreign? unit offset =
      (ofSections sections naming).foreign? unit offset := by
  obtain ⟨same, early⟩ := unitAtOrBefore?_withTail tail near
  unfold foreign?
  split
  next => rfl
  next =>
    simp only [ofSections, same]
    cases chosen : (UnitIndex.build sections).unitAtOrBefore? offset with
    | none => rfl
    | some owner =>
      obtain ⟨header, member, rfl⟩ := early owner chosen
      simp only [UnitIndex.entryOf, atOffset_withTail member]
      rfl

theorem follow?_withTail (below : die.LinksBelow (UnitHeader.placeBehind sections.info count))
    (kind : LinkKind) :
    (ofSections (sections.withTail count tail) naming).follow? die.unit die.entry kind.attribute =
      (ofSections sections naming).follow? die.unit die.entry kind.attribute := by
  unfold follow?
  cases held : attribute? die.entry kind.attribute with
  | error fault => rfl
  | ok value =>
    simp only [bind, Except.bind]
    split
    next => rfl
    next offset => exact foreign?_withTail (below kind offset (mapDwarf_eq_ok.1 held))
    next => rfl

variable {before after : CompilationUnit → Entry → Except Fault (Option SymbolName)}

theorem linked?_withTail (below : die.LinksBelow (UnitHeader.placeBehind sections.info count))
    (kind : LinkKind)
    (agree : ∀ next : Die, (ofSections sections naming).follow? die.unit die.entry kind.attribute =
      .ok (some (next.unit, next.entry)) → after next.unit next.entry = before next.unit next.entry) :
    (ofSections (sections.withTail count tail) naming).linked? after die.unit die.entry kind.attribute =
      (ofSections sections naming).linked? before die.unit die.entry kind.attribute := by
  unfold linked?
  rw [follow?_withTail below]
  cases followed : (ofSections sections naming).follow? die.unit die.entry kind.attribute with
  | error fault => rfl
  | ok found =>
    cases found with
    | none => rfl
    | some pair => exact agree ⟨pair.1, pair.2⟩ followed

theorem ownOrBorrowed?_withTail (below : die.LinksBelow (UnitHeader.placeBehind sections.info count))
    (over_origin : ∀ next : Die,
      (ofSections sections naming).names die.unit die.entry = .ok ⟨none, none, none⟩ →
      (ofSections sections naming).follow? die.unit die.entry Dwarf.Name.abstractOrigin =
        .ok (some (next.unit, next.entry)) →
      after next.unit next.entry = before next.unit next.entry)
    (over_specification : ∀ next : Die,
      (ofSections sections naming).names die.unit die.entry = .ok ⟨none, none, none⟩ →
      (ofSections sections naming).linked? before die.unit die.entry Dwarf.Name.abstractOrigin = .ok none →
      (ofSections sections naming).follow? die.unit die.entry Dwarf.Name.specification =
        .ok (some (next.unit, next.entry)) →
      after next.unit next.entry = before next.unit next.entry) :
    (ofSections (sections.withTail count tail) naming).ownOrBorrowed? after die.unit die.entry =
      (ofSections sections naming).ownOrBorrowed? before die.unit die.entry := by
  have same_names : (ofSections (sections.withTail count tail) naming).names die.unit die.entry =
      (ofSections sections naming).names die.unit die.entry := rfl
  have setting : (ofSections (sections.withTail count tail) naming).naming =
      (ofSections sections naming).naming := rfl
  unfold ownOrBorrowed?
  rw [same_names]
  cases read : (ofSections sections naming).names die.unit die.entry with
  | error fault => rfl
  | ok names =>
    simp only [bind, Except.bind, setting]
    cases chosen : (ofSections sections naming).naming.choose names with
    | some name => rfl
    | none =>
      have nameless := (Naming.choose_eq_none_iff _ _).1 chosen
      subst nameless
      have first : (ofSections (sections.withTail count tail) naming).linked? after die.unit die.entry
          Dwarf.Name.abstractOrigin =
          (ofSections sections naming).linked? before die.unit die.entry Dwarf.Name.abstractOrigin :=
        linked?_withTail below .origin fun next => over_origin next read
      rw [first]
      cases lent : (ofSections sections naming).linked? before die.unit die.entry
          Dwarf.Name.abstractOrigin with
      | error fault => rfl
      | ok found =>
        cases found with
        | some name => rfl
        | none => exact linked?_withTail below .specification fun next => over_specification next read lent

/-- The search over links that stay in front of the place finds the same name. -/
theorem nameWithin_withTail
    (below : ∀ last, (ofSections sections naming).LooksAt links die last →
      last.LinksBelow (UnitHeader.placeBehind sections.info count)) :
    (ofSections (sections.withTail count tail) naming).nameWithin links die.unit die.entry =
      (ofSections sections naming).nameWithin links die.unit die.entry := by
  induction links generalizing die with
  | zero => exact ownOrBorrowed?_withTail (below die (.here 0 die)) (fun _ _ _ => rfl) fun _ _ _ _ => rfl
  | succ links ih =>
    apply ownOrBorrowed?_withTail (below die (.here (links + 1) die))
    · intro next nameless followed
      apply ih
      exact fun last looks => below last (.origin nameless followed looks)
    · intro next nameless fruitless followed
      apply ih
      exact fun last looks => below last (.specification nameless fruitless followed looks)

end NameSource

/-! Frames. -/

namespace ScopeSource

def ofSections (sections : Sections) (naming : Naming) (unit : CompilationUnit) (lines : LineTable) :
    ScopeSource :=
  { NameSource.ofSections sections naming with unit, lines }

variable {unit : CompilationUnit} {lines : LineTable} {forest : Forest}

theorem enters_withTail (target : UInt64) :
    (ofSections (sections.withTail count tail) naming unit lines).enters target =
      (ofSections sections naming unit lines).enters target := by
  funext entry
  have ranges : unit.entryRanges (sections.withTail count tail) entry = unit.entryRanges sections entry :=
    Dwarf.CompilationUnit.entryRanges_info sections _ unit entry
  simp only [enters, ofSections, NameSource.ofSections, ranges]

theorem scopeOf_withTail {entry : Entry}
    (named : (ofSections (sections.withTail count tail) naming unit lines).functionName? unit entry =
      (ofSections sections naming unit lines).functionName? unit entry) (subprogram : Bool) :
    (ofSections (sections.withTail count tail) naming unit lines).scopeOf entry subprogram =
      (ofSections sections naming unit lines).scopeOf entry subprogram := by
  have same_unit (sections : Sections) : (ofSections sections naming unit lines).unit = unit := rfl
  have placed : (ofSections (sections.withTail count tail) naming unit lines).callSite? entry =
      (ofSections sections naming unit lines).callSite? entry := rfl
  simp only [scopeOf, same_unit, placed, named]

/-- The walk over a list of siblings, when the names it asks for are the same as before. -/
theorem scopesOf_withTail
    (same : ∀ entry, (ofSections sections naming unit lines).AsksName forest entry →
      (ofSections (sections.withTail count tail) naming unit lines).functionName? unit entry =
        (ofSections sections naming unit lines).functionName? unit entry) :
    (ofSections (sections.withTail count tail) naming unit lines).scopesOf forest =
      (ofSections sections naming unit lines).scopesOf forest := by
  induction forest with
  | done => rfl
  | failed fault => rfl
  | node entry entered children next inner outer =>
    -- The children are walked in any case, the entry and its siblings only when the walk gets there.
    rw [scopesOf_node, scopesOf_node, inner fun below asks => same below (.inside asks)]
    cases walked : (ofSections sections naming unit lines).scopesOf children with
    | error fault => simp only [bind, Except.bind]
    | ok pair =>
      obtain ⟨scopes, ended⟩ := pair
      cases ended with
      | true => simp only [bind, Except.bind, ↓reduceIte]
      | false =>
        cases here : entered && isScope entry with
        | false =>
          have passes := not_isSubprogram_of_not_isScope here
          have rest := outer fun later asks => same later
            (.behind walked passes (fun wrong => Bool.noConfusion (here.symm.trans wrong)) asks)
          simp only [bind, Except.bind, rest, Bool.false_eq_true, ↓reduceIte]
        | true =>
          obtain ⟨rfl, listed⟩ := Bool.and_eq_true_iff.1 here
          simp only [bind, Except.bind, scopeOf_withTail (same entry (.scope walked listed))]
          cases read : (ofSections sections naming unit lines).scopeOf entry (isSubprogram entry) with
          | error fault => simp only [Bool.false_eq_true, ↓reduceIte]
          | ok scope =>
            cases subprogram : isSubprogram entry with
            | true => simp only [Bool.false_eq_true, ↓reduceIte]
            | false =>
              rw [subprogram] at read
              have rest := outer fun later asks => same later
                (.behind walked subprogram (fun _ => ⟨scope, read⟩) asks)
              simp only [rest]

theorem resolve_withTail {target : UInt64} (leaf : Option SourceLocation)
    (below : ∀ last, (NameSource.ofSections sections naming).Follows unit lines target last →
      last.LinksBelow (UnitHeader.placeBehind sections.info count)) :
    (ofSections (sections.withTail count tail) naming unit lines).resolve target leaf =
      (ofSections sections naming unit lines).resolve target leaf := by
  have same_unit (sections : Sections) : (ofSections sections naming unit lines).unit = unit := rfl
  simp only [resolve, same_unit, enters_withTail]
  cases read : unit.forest ((ofSections sections naming unit lines).enters target) with
  | error fault => simp only [mapDwarf, bind, Except.bind]
  | ok forest =>
    have walked : (ofSections (sections.withTail count tail) naming unit lines).scopesOf forest =
        (ofSections sections naming unit lines).scopesOf forest := by
      apply scopesOf_withTail
      intro entry asks
      have visited : ∀ last, (NameSource.ofSections sections naming).LooksAt NameSource.maxLinks
          ⟨unit, entry⟩ last → last.LinksBelow (UnitHeader.placeBehind sections.info count) :=
        fun last looks => below last ⟨forest, entry, read, asks, looks⟩
      exact NameSource.nameWithin_withTail visited
    simp only [mapDwarf, bind, Except.bind, walked]

end ScopeSource

namespace NameSource

variable {address : UInt64} {slot : Nat} {unit : CompilationUnit} {lines : LineTable} {row : LineRow}

theorem framesAt_withTail
    (below : ∀ last, (ofSections sections naming).Follows unit lines address last →
      last.LinksBelow (UnitHeader.placeBehind sections.info count)) :
    (ofSections (sections.withTail count tail) naming).framesAt unit lines row address =
      (ofSections sections naming).framesAt unit lines row address := by
  have whole (sections : Sections) : ({ ofSections sections naming with unit, lines } : ScopeSource) =
      ScopeSource.ofSections sections naming unit lines := rfl
  simp only [framesAt, whole, ScopeSource.resolve_withTail _ below]

theorem readUnit_withTail (tail : Bytes) {entry : UnitEntry} (early : slot < count)
    (found : (UnitIndex.build sections).entries[slot]? = some entry) :
    readUnit (sections.withTail count tail) entry.offset = readUnit sections entry.offset := by
  rw [UnitIndex.entries_build, List.getElem?_map] at found
  obtain ⟨header, here, rfl⟩ := Option.map_eq_some_iff.1 found
  have member : header ∈ (UnitHeader.all sections.info).take count := by
    rw [← List.getElem?_take_of_lt early] at here
    exact List.mem_of_getElem? here
  have headed : UnitHeader.atOffset (sections.withTail count tail).info header.offset =
      UnitHeader.atOffset sections.info header.offset := atOffset_withTail member
  have stands := UnitHeader.atOffset_of_mem_all (List.mem_of_mem_take member)
  simp only [readUnit, UnitIndex.entryOf, headed, stands, mapDwarf, bind, Except.bind]
  rfl

theorem tellsLine_withTail (enough : count ≤ (UnitHeader.all sections.info).length) (early : slot < count) :
    (ofSections (sections.withTail count tail) naming).TellsLine address slot unit lines row ↔
      (ofSections sections naming).TellsLine address slot unit lines row := by
  have listed : (ofSections (sections.withTail count tail) naming).index.entries[slot]? =
      (ofSections sections naming).index.entries[slot]? := getElem?_build_withTail enough early
  constructor
  · rintro ⟨⟨entry, interval, found, range, reached, under, read⟩, governs, lined⟩
    rw [listed] at found
    have read_too := (readUnit_withTail tail early found).symm.trans read
    exact ⟨⟨entry, interval, found, range, reached, under, read_too⟩, governs, lined⟩
  · rintro ⟨⟨entry, interval, found, range, reached, under, read⟩, governs, lined⟩
    have read_too := (readUnit_withTail tail early found).trans read
    exact ⟨⟨entry, interval, listed.trans found, range, reached, under, read_too⟩, governs, lined⟩

theorem firstToTell_withTail (enough : count ≤ (UnitHeader.all sections.info).length) (early : slot < count)
    (first : (ofSections sections naming).FirstToTell address slot unit lines row) :
    (ofSections (sections.withTail count tail) naming).FirstToTell address slot unit lines row := by
  refine ⟨(tellsLine_withTail enough early).2 first.tells, ?_⟩
  intro lower under unit lines row tells
  exact first.lowest lower under unit lines row
    ((tellsLine_withTail enough (Nat.lt_trans under early)).1 tells)

theorem lookup_of_first {source : NameSource} (first : source.FirstToTell address slot unit lines row) :
    source.lookup address = .found (source.framesAt unit lines row address) := by
  obtain ⟨frames, found⟩ := lookup_found_iff.2 ⟨slot, unit, lines, row, first.tells⟩
  obtain ⟨other, unit_too, lines_too, row_too, first_too, same⟩ := lookup_found found
  obtain ⟨rfl, rfl, rfl⟩ := first.unique first_too
  rw [found, same]

end NameSource

/-- Whatever takes the place of the bytes behind the first units: these keep their slots in the index, with
their offsets and intervals, and an address that one of them answers for is served the same frames, whatever
was looked up before in either session. The entries that names are taken from must not refer to the place of
the damage or behind it. -/
theorem Session.serve_withTail (sections : Sections) (count : Nat) (tail : Bytes)
    (enough : count ≤ (UnitHeader.all sections.info).length) :
    (UnitIndex.build (sections.withTail count tail)).entries.take count =
        (UnitIndex.build sections).entries.take count ∧
      ∀ (naming : Naming) (address : UInt64) slot unit lines row, slot < count →
        (NameSource.ofSections sections naming).FirstToTell address slot unit lines row →
        (∀ last, (NameSource.ofSections sections naming).Follows unit lines address last →
          last.LinksBelow (UnitHeader.placeBehind sections.info count)) →
        ∀ earlier others, ∃ frames,
          (((ofSections sections naming).after earlier).serve address).1 = .found frames ∧
          (((ofSections (sections.withTail count tail) naming).after others).serve address).1 =
            .found frames := by
  refine ⟨build_withTail enough, ?_⟩
  intro naming address slot unit lines row early first below earlier others
  have served (sections : Sections) (earlier : List UInt64) :
      (((ofSections sections naming).after earlier).serve address).1 =
        (NameSource.ofSections sections naming).lookup address := by
    obtain ⟨coherent, kept⟩ := after_coherent (coherent_ofSections sections naming) earlier
    rw [serve_lookup coherent address, kept]
    rfl
  refine ⟨(NameSource.ofSections sections naming).framesAt unit lines row address, ?_, ?_⟩
  · rw [served, NameSource.lookup_of_first first]
  · rw [served, NameSource.lookup_of_first (NameSource.firstToTell_withTail enough early first),
      NameSource.framesAt_withTail below]

/-- Two units. A subprogram of the first has its name from another one, over a link that counts from the
start of the section. -/
def frayed : Sections where
  info := [0x2d, 0, 0, 0, 4, 0, 0, 0, 0, 0, 8,
    1, 0, 0, 0, 0, 0, 0x10, 0, 0, 0, 0, 0, 0, 0, 1, 0, 0,
    2, 0, 0x10, 0, 0, 0, 0, 0, 0, 0, 1, 0, 0, 45, 0, 0, 0,
    3, 0x66, 0, 0,
    8, 0, 0, 0, 4, 0, 0, 0, 0, 0, 8, 0]
  abbreviations := [1, 0x11, 1, 0x10, 0x17, 0x11, 1, 0x12, 6, 0, 0,
    2, 0x2e, 0, 0x11, 1, 0x12, 6, 0x31, 0x10, 0, 0, 3, 0x2e, 0, 3, 8, 0, 0, 0]
  line := [0x33, 0, 0, 0, 4, 0, 0x1b, 0, 0, 0, 1, 1, 1, 0xfb, 0xe, 0xd, 0, 1, 1, 1, 1, 0, 0, 0, 1, 0, 0, 1,
    0, 0x61, 0x2e, 0x63, 0, 0, 0, 0, 0,
    0, 9, 2, 0, 0x10, 0, 0, 0, 0, 0, 0, 1, 2, 0x80, 2, 0, 1, 1]
  str := []
  lineStr := []
  strOffsets := []
  addr := []
  ranges := []
  rnglists := []

def frayedUnit : CompilationUnit where
  header := ⟨0, ⟨.dwarf32, 4, 8⟩, 0, 11,
    [1, 0, 0, 0, 0, 0, 0x10, 0, 0, 0, 0, 0, 0, 0, 1, 0, 0,
      2, 0, 0x10, 0, 0, 0, 0, 0, 0, 0, 1, 0, 0, 45, 0, 0, 0, 3, 0x66, 0, 0]⟩
  abbreviations := [⟨1, 0x11, true, [⟨0x10, 0x17, none⟩, ⟨0x11, 1, none⟩, ⟨0x12, 6, none⟩]⟩,
    ⟨2, 0x2e, false, [⟨0x11, 1, none⟩, ⟨0x12, 6, none⟩, ⟨0x31, 0x10, none⟩]⟩,
    ⟨3, 0x2e, false, [⟨3, 8, none⟩]⟩]
  bases := ⟨0, 0, 0⟩
  lowPc := 0x1000
  compDir := none
  lineHeader := some ⟨⟨.dwarf32, 4, 8⟩, 1, 1, -5, 14, 13, [0, 1, 1, 1, 1, 0, 0, 0, 1, 0, 0, 1], [],
    [⟨.text [0x61, 0x2e, 0x63], 0⟩], [0, 9, 2, 0, 0x10, 0, 0, 0, 0, 0, 0, 1, 2, 0x80, 2, 0, 1, 1]⟩

def frayedLines : LineTable :=
  ⟨[⟨0x1000, 1, 1, 0, false⟩, ⟨0x1100, 1, 1, 0, true⟩], ["a.c"], 1⟩

def frayedNaming : Naming := ⟨false, ⟨fun _ => none, fun _ => none⟩⟩

def frayedFirst : Entry :=
  ⟨28, 0x2e, false, [⟨0x11, .address 0x1000⟩, ⟨0x12, .constant 0x100⟩, ⟨0x31, .infoRef 45⟩],
    .ok ⟨45, [3, 0x66, 0, 0]⟩⟩

def frayedSecond : Entry :=
  ⟨45, 0x2e, false, [⟨3, .text [0x66]⟩], .ok ⟨48, [0]⟩⟩

abbrev frayedSource : NameSource := NameSource.ofSections frayed frayedNaming

theorem frayed_tells : frayedSource.TellsLine 0x1028 0 frayedUnit frayedLines ⟨0x1000, 1, 1, 0, false⟩ := by
  have read : readUnit frayed 0 = .ok ⟨frayedUnit, some frayedLines⟩ := by cbv
  exact ⟨⟨⟨0, some ⟨0x1000, 0x1100⟩⟩, ⟨0x1000, 0x1100⟩, by cbv, rfl, by decide, by decide, read⟩, rfl,
    by decide⟩

theorem frayed_looks {last : Die} {links : Nat}
    (looks : frayedSource.LooksAt links ⟨frayedUnit, frayedSecond⟩ last) : last = ⟨frayedUnit, frayedSecond⟩ := by
  have named : frayedSource.names frayedUnit frayedSecond = .ok ⟨none, none, some "f"⟩ := by cbv
  cases looks with
  | here => rfl
  | origin nameless => exact absurd (named.symm.trans nameless) (by simp)
  | specification nameless => exact absurd (named.symm.trans nameless) (by simp)

theorem frayed_follows {last : Die} (follows : frayedSource.Follows frayedUnit frayedLines 0x1028 last) :
    last.LinksBelow 49 := by
  obtain ⟨forest, entry, read, asks, looks⟩ := follows
  have decoded : frayedUnit.forest (ScopeSource.enters
      { frayedSource with unit := frayedUnit, lines := frayedLines } 0x1028) =
      .ok (.node frayedFirst true .done (.node frayedSecond false .done .done)) := by rfl
  cases decoded.symm.trans read
  have asked : entry = frayedFirst := by
    cases asks with
    | inside asks => cases asks
    | scope => rfl
    | behind _ passes => cases passes
  subst asked
  have origin : frayedSource.follow? frayedUnit frayedFirst Dwarf.Name.abstractOrigin =
      .ok (some (frayedUnit, frayedSecond)) := by cbv
  have specification : frayedSource.follow? frayedUnit frayedFirst Dwarf.Name.specification = .ok none := by cbv
  have visited : last = ⟨frayedUnit, frayedFirst⟩ ∨ last = ⟨frayedUnit, frayedSecond⟩ := by
    cases looks with
    | here => exact .inl rfl
    | @origin _ _ next _ nameless followed rest =>
      obtain ⟨unit, entry⟩ := next
      cases origin.symm.trans followed
      exact .inr (frayed_looks rest)
    | specification _ _ followed => cases specification.symm.trans followed
  intro kind offset refers
  rcases visited with rfl | rfl <;> cases kind <;> cases refers
  decide

/-- The second unit gives way to a byte that begins no header. -/
theorem Session.serve_withTail_frayed :
    1 ≤ (UnitHeader.all frayed.info).length ∧
      frayedSource.FirstToTell 0x1028 0 frayedUnit frayedLines ⟨0x1000, 1, 1, 0, false⟩ ∧
      (∀ last, frayedSource.Follows frayedUnit frayedLines 0x1028 last →
        last.LinksBelow (UnitHeader.placeBehind frayed.info 1)) ∧
      (UnitIndex.build (frayed.withTail 1 [0xff])).entries.take 1 = [⟨0, some ⟨0x1000, 0x1100⟩⟩] ∧
      (((ofSections (frayed.withTail 1 [0xff]) frayedNaming).after [0x2000]).serve 0x1028).1 =
        .found [⟨some ⟨"a.c", 1, 0⟩, some ⟨"f", none, .c⟩⟩] := by
  have enough : 1 ≤ (UnitHeader.all frayed.info).length := by decide
  have first : frayedSource.FirstToTell 0x1028 0 frayedUnit frayedLines ⟨0x1000, 1, 1, 0, false⟩ :=
    ⟨frayed_tells, fun lower below => absurd below (Nat.not_lt_zero lower)⟩
  have below : ∀ last, frayedSource.Follows frayedUnit frayedLines 0x1028 last →
      last.LinksBelow (UnitHeader.placeBehind frayed.info 1) := fun _ => frayed_follows
  obtain ⟨kept, same⟩ := serve_withTail frayed 1 [0xff] enough
  obtain ⟨frames, whole, damaged⟩ :=
    same frayedNaming 0x1028 0 frayedUnit frayedLines _ (by decide) first below [] [0x2000]
  refine ⟨enough, first, below, kept.trans (by cbv), damaged.trans ?_⟩
  rw [← whole]
  cbv

end Symbolizer
