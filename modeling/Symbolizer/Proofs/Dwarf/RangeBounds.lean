import Symbolizer.Dwarf.Ranges
import Symbolizer.Proofs.Dwarf.Headers

/-!
Ranges reach from one 64-bit address to another, whatever bytes they are read from: an address has the width
that the header of its unit brings along, which is eight bytes at most, and sums are taken modulo that width
or modulo 2^64.
-/

namespace Symbolizer.Dwarf

def Range.Fits (range : Range) : Prop :=
  range.low < UInt64.size ∧ range.high < UInt64.size

def Value.Fits (size : Nat) (value : Value) : Prop :=
  ∀ address, value = .address address → address ≤ maxAddress size

theorem Value.fits_of_ne {size : Nat} {value : Value} (other : ∀ address, value ≠ .address address) :
    value.Fits size :=
  fun address same => absurd same (other address)

theorem Value.ofInt_ne (value : Int) (address : Nat) : Value.ofInt value ≠ .address address := by
  cases value <;> exact nofun

theorem maxAddress_lt {size : Nat} (narrow : size ≤ 8) : maxAddress size < UInt64.size := by
  have power : 2 ^ (8 * size) ≤ 2 ^ 64 := Nat.pow_le_pow_right (by decide) (by omega)
  have least : 0 < 2 ^ (8 * size) := Nat.two_pow_pos _
  rw [maxAddress, Nat.one_shiftLeft]
  simp only [UInt64.size]
  omega

theorem lt_of_le_maxAddress {size address : Nat} (narrow : size ≤ 8) (fits : address ≤ maxAddress size) :
    address < UInt64.size :=
  Nat.lt_of_le_of_lt fits (maxAddress_lt narrow)

theorem wrapAddress_lt {size : Nat} (narrow : size ≤ 8) (address distance : Nat) :
    wrapAddress size address distance < UInt64.size := by
  have below : wrapAddress size address distance < maxAddress size + 1 := Nat.mod_lt _ (Nat.succ_pos _)
  exact lt_of_le_maxAddress narrow (Nat.le_of_lt_succ below)

/-! Attributes. -/

namespace Read

variable {α : Type} {size : Nat}

theorem ensures_other {read : Read α} {value : α → Value} (other : ∀ held address, value held ≠ .address address) :
    Ensures (value <$> read) (Value.Fits size) :=
  ensures_map fun _ held _ _ => Value.fits_of_ne (other held)

theorem ensures_blockOf (length : Read Nat) : Ensures (blockOf length) (Value.Fits size) :=
  ensures_last fun _ => ensures_last fun _ => ensures_pure (Value.fits_of_ne nofun)

theorem ensures_pass (count : Nat) : Ensures (pass count) (Value.Fits size) :=
  ensures_last fun _ => ensures_pure (Value.fits_of_ne nofun)

theorem ensures_plainNumber (encoding : Encoding) (name width : Nat) :
    Ensures (plainNumber encoding name width) (Value.Fits size) := by
  refine ensures_last fun value => ensures_pure (Value.fits_of_ne fun address => ?_)
  split <;> exact nofun

theorem ensures_implicit (implicit : Option Int) :
    Ensures (match implicit with
      | some value => return .ofInt value
      | none => throw .invalidImplicitConst) (Value.Fits size) := by
  cases implicit with
  | none => exact ensures_throw _
  | some value => exact ensures_pure (Value.fits_of_ne (Value.ofInt_ne value))

theorem ensures_directValue (encoding : Encoding) (name : Nat) (implicit : Option Int) (form : Nat) :
    Ensures (directValue encoding name implicit form) (Value.Fits encoding.addressSize) := by
  unfold directValue
  split
  · refine ensures_map fun cursor address next ran given same => ?_
    cases same
    exact ensures_address encoding _ _ _ ran
  all_goals first
    | exact ensures_blockOf _
    | exact ensures_pass _
    | exact ensures_plainNumber _ _ _
    | exact ensures_other nofun
    | exact ensures_other Value.ofInt_ne
    | exact ensures_pure (Value.fits_of_ne nofun)
    | exact ensures_last fun _ => ensures_pure (Value.fits_of_ne nofun)
    | exact ensures_implicit implicit
    | exact ensures_throw _

theorem ensures_throughIndirect (encoding : Encoding) (name : Nat) (implicit : Option Int) (fuel form : Nat) :
    Ensures (throughIndirect encoding name implicit fuel form) (Value.Fits encoding.addressSize) := by
  induction fuel generalizing form with
  | zero => exact ensures_throw _
  | succ fuel ih =>
    rw [throughIndirect]
    refine ensures_ite (fun _ => ensures_last fun next => ih next) fun _ => ?_
    exact ensures_directValue _ _ _ _

theorem ensures_attributeOf (encoding : Encoding) (spec : AttributeSpec) :
    Ensures (attributeOf encoding spec) fun attr => attr.value.Fits encoding.addressSize := by
  refine ensures_last fun place => ?_
  exact ensures_bind (ensures_throughIndirect _ _ _ _ _) fun value fits => ensures_pure fits

end Read

open Read

variable {encoding : Encoding} {sections : Sections} {unit : CompilationUnit} {header : UnitHeader}
  {cursor next : Cursor} {entry : Entry} {value : Value} {base address : Nat} {list : RangeList}

theorem decodeAttributes_fits (specs : List AttributeSpec) (cursor : Cursor) :
    ∀ attr ∈ (Entry.decodeAttributes encoding specs cursor).1, attr.value.Fits encoding.addressSize := by
  induction specs generalizing cursor with
  | nil => exact nofun
  | cons spec specs ih =>
    rw [Entry.decodeAttributes]
    split
    next => exact nofun
    next attr next read =>
      exact List.forall_mem_cons.2 ⟨ensures_attributeOf encoding spec _ _ _ read, ih next⟩

theorem entry_fits {abbreviations : List Abbreviation}
    (read : Entry.read encoding abbreviations cursor = .ok (.entry entry)) :
    ∀ attr ∈ entry.attributes, attr.value.Fits encoding.addressSize := by
  obtain ⟨⟨code, place⟩, _, read⟩ := bind_eq_ok.1 read
  dsimp only at read
  split at read
  next => cases read
  next =>
    split at read
    next => cases read
    next abbreviation _ =>
      cases read
      exact decodeAttributes_fits _ _

namespace CompilationUnit

theorem firstEntry_fits {abbreviations : List Abbreviation} {fuel : Nat}
    (found : firstEntry encoding abbreviations fuel cursor = .ok entry) :
    ∀ attr ∈ entry.attributes, attr.value.Fits encoding.addressSize := by
  induction fuel generalizing cursor with
  | zero => cases found
  | succ fuel ih =>
    rw [firstEntry] at found
    split at found
    next => cases found
    next =>
      obtain ⟨item, read, found⟩ := bind_eq_ok.1 found
      cases item with
      | null next => exact ih found
      | entry first =>
        cases found
        exact entry_fits read

end CompilationUnit

theorem Sections.address_lt {bases : Bases} {size index : Nat} (narrow : size ≤ 8)
    (found : sections.address bases size index = .ok address) : address < UInt64.size := by
  obtain ⟨place, _, found⟩ := bind_eq_ok.1 found
  obtain ⟨⟨held, behind⟩, read, same⟩ := bind_eq_ok.1 found
  cases same
  have below : address < 256 ^ size := ensures_number size _ _ _ read
  have widest : 256 ^ size ≤ 256 ^ 8 := Nat.pow_le_pow_right (by decide) narrow
  exact Nat.lt_of_lt_of_le below widest

/-! Range lists. -/

namespace RangeList

def Raw.Fits : Raw → Prop
  | .startEnd low high => low < UInt64.size ∧ high < UInt64.size
  | .startLength low _ => low < UInt64.size
  | _ => True

theorem ensures_addressPair (encoding : Encoding) :
    Ensures (addressPair encoding) fun found => ∀ raw ∈ found, raw.Fits := by
  refine ensures_last fun low => ensures_last fun high => ?_
  refine ensures_ite (fun _ => ensures_pure nofun) fun _ => ensures_ite (fun _ => ?_) fun _ => ?_
  all_goals
    refine ensures_pure fun raw found => ?_
    cases found
    trivial

theorem ensures_taggedEntry (narrow : encoding.addressSize ≤ 8) :
    Ensures (taggedEntry encoding) fun found => ∀ raw ∈ found, raw.Fits := by
  have address : Ensures (Read.address encoding) fun address => address < UInt64.size :=
    fun cursor address next ran => lt_of_le_maxAddress narrow (ensures_address encoding _ _ _ ran)
  have only {raw : Raw} (fits : raw.Fits) : ∀ found ∈ some raw, found.Fits := by
    rintro found ⟨⟩
    exact fits
  refine ensures_last fun tag => ?_
  split
  · exact ensures_pure nofun
  · exact ensures_last fun _ => ensures_pure (only trivial)
  · exact ensures_last fun _ => ensures_last fun _ => ensures_pure (only trivial)
  · exact ensures_last fun _ => ensures_last fun _ => ensures_pure (only trivial)
  · exact ensures_last fun _ => ensures_last fun _ => ensures_pure (only trivial)
  · exact ensures_last fun _ => ensures_pure (only trivial)
  · exact ensures_bind address fun low fits =>
      ensures_bind address fun high fits_too => ensures_pure (only ⟨fits, fits_too⟩)
  · exact ensures_bind address fun low fits => ensures_last fun _ => ensures_pure (only fits)
  · exact ensures_throw _

theorem ensures_rawEntry (narrow : encoding.addressSize ≤ 8) :
    Ensures (rawEntry encoding) fun found => ∀ raw ∈ found, raw.Fits :=
  ensures_ite (fun _ => ensures_addressPair encoding) fun _ => ensures_taggedEntry narrow

/-- Whatever the base is, what an entry means is a range of addresses. -/
theorem interpret_fits {raw : Raw} {range : Range} {after : Nat} (narrow : unit.encoding.addressSize ≤ 8)
    (fits : raw.Fits) (means : interpret sections unit base raw = .ok (after, some range)) : range.Fits := by
  cases raw with
  | base => cases means
  | basex =>
    obtain ⟨held, _, means⟩ := bind_eq_ok.1 means
    cases means
  | startxEndx =>
    obtain ⟨low, found, means⟩ := bind_eq_ok.1 means
    obtain ⟨high, found_too, means⟩ := bind_eq_ok.1 means
    cases means
    exact ⟨Sections.address_lt narrow found, Sections.address_lt narrow found_too⟩
  | startxLength =>
    obtain ⟨low, found, means⟩ := bind_eq_ok.1 means
    cases means
    exact ⟨Sections.address_lt narrow found, wrapAddress_lt narrow _ _⟩
  | offsetPair =>
    simp only [interpret] at means
    split at means
    next => cases means
    next =>
      cases means
      exact ⟨wrapAddress_lt narrow _ _, wrapAddress_lt narrow _ _⟩
  | startEnd =>
    cases means
    exact fits
  | startLength =>
    cases means
    exact ⟨fits, wrapAddress_lt narrow _ _⟩

theorem decode_fits (narrow : unit.encoding.addressSize ≤ 8) (fuel base : Nat) (cursor : Cursor) :
    ∀ range ∈ (decode sections unit fuel base cursor).ranges, range.Fits := by
  induction fuel generalizing base cursor with
  | zero => exact nofun
  | succ fuel ih =>
    rw [decode]
    split
    next => exact nofun
    next =>
      split
      next => exact nofun
      next => exact nofun
      next raw next read =>
        have fits := ensures_rawEntry narrow _ _ _ read raw rfl
        split
        next => exact nofun
        next => exact ih _ _
        next range means =>
          dsimp only
          split
          next => exact List.forall_mem_cons.2 ⟨interpret_fits narrow fits means, ih _ _⟩
          next => exact ih _ _

theorem ofValue?_fits (narrow : unit.encoding.addressSize ≤ 8)
    (found : ofValue? sections unit value = .ok (some list)) : ∀ range ∈ list.ranges, range.Fits := by
  have listed {offset : Nat} (read : atOffset sections unit offset = .ok list) :
      ∀ range ∈ list.ranges, range.Fits := by
    obtain ⟨cursor, _, read⟩ := bind_eq_ok.1 read
    cases read
    exact decode_fits narrow _ _ _
  cases value with
  | sectionOffset offset =>
    rw [ofValue?, map_eq_pure_bind] at found
    obtain ⟨held, read, same⟩ := bind_eq_ok.1 found
    cases same
    exact listed read
  | rangeListIndex index =>
    obtain ⟨offset, _, found⟩ := bind_eq_ok.1 found
    obtain ⟨held, read, found⟩ := bind_eq_ok.1 found
    cases found
    exact listed read
  | _ => cases found

end RangeList

namespace CompilationUnit

theorem requiredAddress_lt (narrow : unit.encoding.addressSize ≤ 8)
    (fits : value.Fits unit.encoding.addressSize)
    (found : unit.requiredAddress sections value = .ok address) : address < UInt64.size := by
  obtain ⟨held, named, found⟩ := bind_eq_ok.1 found
  cases held with
  | none => cases found
  | some held =>
    cases found
    cases value with
    | address =>
      cases named
      exact lt_of_le_maxAddress narrow (fits address rfl)
    | addressIndex index =>
      rw [addressOf?, Sections.addressOf?, map_eq_pure_bind] at named
      obtain ⟨held, read, same⟩ := bind_eq_ok.1 named
      cases same
      exact Sections.address_lt narrow read
    | _ => cases named

structure BoundsFit (bounds : PcBounds) : Prop where
  low : ∀ low ∈ bounds.low, low < UInt64.size
  high : ∀ high ∈ bounds.high, high < UInt64.size

variable {bounds : PcBounds}

theorem boundsFit_none : BoundsFit ⟨none, none, none⟩ :=
  ⟨nofun, nofun⟩

theorem BoundsFit.withLow (fit : BoundsFit bounds) (reached : address < UInt64.size) :
    BoundsFit { bounds with low := some address } := by
  refine ⟨?_, fit.high⟩
  rintro low ⟨⟩
  exact reached

theorem BoundsFit.withHigh (fit : BoundsFit bounds) (reached : address < UInt64.size) :
    BoundsFit { bounds with high := some address } := by
  refine ⟨fit.low, ?_⟩
  rintro high ⟨⟩
  exact reached

theorem BoundsFit.withLength (fit : BoundsFit bounds) (length : Nat) :
    BoundsFit { bounds with length := some length } :=
  ⟨fit.low, fit.high⟩

theorem BoundsFit.ranges (fit : BoundsFit bounds) : ∀ range ∈ bounds.ranges, range.Fits := by
  obtain ⟨low, high, length⟩ := bounds
  cases low with
  | none => exact nofun
  | some low =>
    have reached := fit.low low rfl
    cases length with
    | some length =>
      rintro range ⟨⟩
      · exact ⟨reached, Nat.mod_lt _ (by decide)⟩
      · contradiction
    | none =>
      cases high with
      | none => exact nofun
      | some high =>
        rintro range ⟨⟩
        · exact ⟨reached, fit.high high rfl⟩
        · contradiction

theorem rangesFrom_fits {stop : Except Fault Cursor} {attributes : List Attribute}
    (narrow : unit.encoding.addressSize ≤ 8) (fit : BoundsFit bounds)
    (fits : ∀ attr ∈ attributes, attr.value.Fits unit.encoding.addressSize)
    (found : unit.rangesFrom sections stop bounds attributes = .ok list) :
    ∀ range ∈ list.ranges, range.Fits := by
  induction attributes generalizing bounds with
  | nil =>
    obtain ⟨_, _, same⟩ := bind_eq_ok.1 found
    cases same
    exact fit.ranges
  | cons attr rest ih =>
    obtain ⟨first, rest_fits⟩ := List.forall_mem_cons.1 fits
    rw [rangesFrom] at found
    split at found
    next =>
      obtain ⟨low, named, found⟩ := bind_eq_ok.1 found
      have reached := requiredAddress_lt narrow first named
      exact ih (fit.withLow reached) rest_fits found
    next =>
      split at found
      next =>
        split at found
        next length _ => exact ih (fit.withLength length) rest_fits found
        next =>
          obtain ⟨high, named, found⟩ := bind_eq_ok.1 found
          have reached := requiredAddress_lt narrow first named
          exact ih (fit.withHigh reached) rest_fits found
      next =>
        split at found
        next =>
          obtain ⟨listed, read, found⟩ := bind_eq_ok.1 found
          cases listed with
          | none => exact ih fit rest_fits found
          | some held =>
            cases found
            exact RangeList.ofValue?_fits narrow read
        next => exact ih fit rest_fits found

theorem ranges_fits (member : header ∈ UnitHeader.all sections.info)
    (reads : CompilationUnit.read sections header = .ok unit) (found : unit.ranges sections = .ok list) :
    ∀ range ∈ list.ranges, range.Fits := by
  have narrow : unit.encoding.addressSize ≤ 8 := by
    rw [encoding, header_of_read reads]
    exact Read.runAt_ensures UnitHeader.ensures_read (UnitHeader.atOffset_of_mem_all member)
  obtain ⟨root, first, found⟩ := bind_eq_ok.1 found
  exact rangesFrom_fits narrow boundsFit_none (firstEntry_fits first) found

end CompilationUnit

end Symbolizer.Dwarf
