import Mathlib
import Symbolizer.Dwarf.CompilationUnit

/-!
What readers guarantee of the values they give, composed from the readers they are made of. Numbers
fit their width, the address width that a header brings along is one of the four there are, and old
line programs spell their directories out.
-/

namespace Symbolizer

theorem bind_eq_ok {ε α β : Type} {first : Except ε α} {second : α → Except ε β} {value : β} :
    first >>= second = .ok value ↔ ∃ held, first = .ok held ∧ second held = .ok value := by
  cases first with
  | error fault => simp [bind, Except.bind]
  | ok held => simp [bind, Except.bind]

theorem toOption_eq_some_iff {ε α : Type} {result : Except ε α} {value : α} :
    result.toOption = some value ↔ result = .ok value := by
  cases result <;> simp [Except.toOption]

section Lists

variable {ε α β : Type} {f : α → Except ε β} {elements : List α}

theorem mapM_eq_ok_iff {results : List β} :
    elements.mapM f = .ok results ↔ elements.map f = results.map .ok := by
  induction elements generalizing results with
  | nil => cases results <;> simp [pure, Except.pure]
  | cons element rest ih =>
    rw [List.mapM_cons, bind_eq_ok]
    simp only [bind_eq_ok, ih]
    cases results <;> simp [pure, Except.pure]

theorem exists_map_ok_iff :
    (∃ results : List β, elements.map f = results.map .ok) ↔
      ∀ element ∈ elements, ∃ result, f element = .ok result := by
  induction elements with
  | nil => exact iff_of_true ⟨[], rfl⟩ nofun
  | cons element rest ih =>
    rw [List.forall_mem_cons, ← ih]
    constructor
    · rintro ⟨results, same⟩
      cases results with
      | nil => cases same
      | cons result results =>
        obtain ⟨first, others⟩ := List.cons.inj same
        exact ⟨⟨result, first⟩, results, others⟩
    · rintro ⟨⟨result, first⟩, results, others⟩
      exact ⟨result :: results, by rw [List.map_cons, List.map_cons, first, others]⟩

end Lists

end Symbolizer

namespace Symbolizer.Dwarf.Read

variable {α β : Type} {cursor next : Cursor}

theorem run_bind {read : Read α} {andThen : α → Read β} {value : β} :
    (read >>= andThen).run cursor = .ok (value, next) ↔
      ∃ first place, read.run cursor = .ok (first, place) ∧
        (andThen first).run place = .ok (value, next) := by
  rw [StateT.run_bind]
  cases outcome : read.run cursor with
  | error fault => simp [bind, Except.bind]
  | ok result =>
    constructor
    · intro ran
      exact ⟨result.1, result.2, rfl, ran⟩
    · rintro ⟨first, place, same, ran⟩
      cases same
      exact ran

theorem run_pure {given value : α} :
    (pure given : Read α).run cursor = .ok (value, next) ↔ given = value ∧ cursor = next := by
  rw [StateT.run_pure]
  simp [pure, Except.pure]

def Ensures (read : Read α) (holds : α → Prop) : Prop :=
  ∀ cursor value next, read.run cursor = .ok (value, next) → holds value

variable {read : Read α} {andThen : α → Read β} {holds : β → Prop} {earlier : α → Prop}

theorem ensures_pure {value : β} (this : holds value) : Ensures (pure value) holds := by
  intro cursor given next ran
  exact (run_pure.1 ran).1 ▸ this

theorem ensures_throw (fault : Fault) : Ensures (throw fault : Read β) holds := by
  intro cursor value next ran
  cases ran

theorem ensures_bind (first : Ensures read earlier)
    (second : ∀ value, earlier value → Ensures (andThen value) holds) :
    Ensures (read >>= andThen) holds := by
  intro cursor value next ran
  obtain ⟨held, place, before, after⟩ := run_bind.1 ran
  exact second held (first _ _ _ before) _ _ _ after

theorem ensures_any (read : Read α) : Ensures read fun _ => True :=
  fun _ _ _ _ => trivial

theorem ensures_last (second : ∀ value, Ensures (andThen value) holds) :
    Ensures (read >>= andThen) holds :=
  ensures_bind (ensures_any read) fun value _ => second value

theorem ensures_map {f : α → β} (first : Ensures read fun value => holds (f value)) :
    Ensures (f <$> read) holds := by
  rw [map_eq_pure_bind]
  exact ensures_bind first fun value this => ensures_pure this

theorem ensures_ite {condition : Prop} [Decidable condition] {yes no : Read β}
    (first : condition → Ensures yes holds) (second : ¬condition → Ensures no holds) :
    Ensures (if condition then yes else no) holds := by
  split
  next met => exact first met
  next unmet => exact second unmet

theorem ensures_choice {condition : Prop} [Decidable condition] {yes no : Read α}
    (first : Ensures yes earlier) (second : Ensures no earlier)
    (rest : ∀ value, earlier value → Ensures (andThen value) holds) :
    Ensures (if condition then yes >>= andThen else no >>= andThen) holds :=
  ensures_ite (fun _ => ensures_bind first rest) fun _ => ensures_bind second rest

theorem ensures_unless {condition : Prop} [Decidable condition] {fault : Fault}
    {go_on : Unit → Read β} (rest : Ensures (go_on ()) holds) :
    Ensures (if condition then do let held ← throw fault; go_on held else go_on ()) holds :=
  ensures_ite (fun _ => ensures_bind (ensures_throw fault) fun _ (this : False) => this.elim)
    fun _ => rest

theorem ensures_inside (earlier : α → Prop) {place : Cursor} {andThen : α × Cursor → Read β}
    (first : Ensures read earlier)
    (second : ∀ result, earlier result.1 → Ensures (andThen result) holds) :
    Ensures (liftM (read.run place) >>= andThen) holds := by
  refine ensures_bind (fun cursor value next ran => ?_) second
  cases outcome : read.run place with
  | error fault =>
    rw [outcome] at ran
    cases ran
  | ok result =>
    rw [outcome] at ran
    cases ran
    exact first _ _ _ outcome

/-! Numbers and addresses. -/

theorem littleEndian_lt (bytes : Bytes) : Bytes.littleEndian bytes < 256 ^ bytes.length := by
  induction bytes with
  | nil => simp [Bytes.littleEndian]
  | cons byte rest ih =>
    have low := byte.toNat_lt
    rw [Bytes.littleEndian, List.length_cons, Nat.pow_succ]
    omega

theorem ensures_take (count : Nat) : Ensures (take count) fun bytes => bytes.length = count := by
  intro cursor bytes next ran
  simp only [StateT.run, take] at ran
  split at ran
  next enough =>
    cases ran
    exact enough
  next => cases ran

theorem ensures_number (width : Nat) : Ensures (number width) fun value => value < 256 ^ width :=
  ensures_bind (ensures_take width) fun bytes enough =>
    ensures_pure (enough ▸ littleEndian_lt bytes)

theorem ensures_address (encoding : Encoding) :
    Ensures (address encoding) fun value => value ≤ maxAddress encoding.addressSize := by
  intro cursor value next ran
  have fits := ensures_number _ _ _ _ ran
  rw [show (256 : Nat) = 2 ^ 8 from rfl, ← Nat.pow_mul] at fits
  rw [maxAddress, Nat.one_shiftLeft]
  exact Nat.le_sub_one_of_lt fits

theorem ensures_addressSize : Ensures addressSize fun size => size ≤ 8 := by
  refine ensures_last fun byte => ?_
  dsimp only
  split
  next known =>
    refine ensures_pure ?_
    omega
  next => exact ensures_throw _

end Symbolizer.Dwarf.Read

namespace Symbolizer.Dwarf

open Read

theorem UnitHeader.ensures_read :
    Ensures UnitHeader.read fun header => header.encoding.addressSize ≤ 8 := by
  unfold UnitHeader.read
  refine ensures_last fun start => ensures_last fun (length, format) => ?_
  refine ensures_last fun bodyStart => ensures_last fun body => ?_
  refine ensures_inside (fun fields => fields.1.addressSize ≤ 8) ?_ ?_
  · refine ensures_last fun version => ensures_ite (fun _ => ?_) fun _ => ensures_unless ?_
    · refine ensures_last fun abbrevOffset => ?_
      exact ensures_bind ensures_addressSize fun size fits => ensures_pure fits
    · refine ensures_last fun unitType => ensures_bind ensures_addressSize fun size fits => ?_
      refine ensures_last fun abbrevOffset => ensures_last fun extra => ?_
      exact ensures_pure fits
  · intro ((encoding, abbrevOffset), behind) fits
    exact ensures_pure fits

theorem Read.ensures_untilNone {α : Type} {read : Read (Option α)} {holds : α → Prop}
    (each : Ensures read fun found => ∀ value ∈ found, holds value) (fuel : Nat) :
    Ensures (untilNone fuel read) fun values => ∀ value ∈ values, holds value := by
  induction fuel with
  | zero => exact ensures_throw _
  | succ fuel ih =>
    refine ensures_bind each fun found this => ?_
    cases found with
    | none => exact ensures_pure nofun
    | some first =>
      exact ensures_bind ih fun rest those => ensures_pure (List.forall_mem_cons.2 ⟨this first rfl, those⟩)

/-- What reading guarantees of the header of a line program: addresses no wider than those of the unit, or
than the widest there are, and before version 5 directories that are spelled out. -/
structure LineHeader.Sound (unitAddressSize : Nat) (header : LineHeader) : Prop where
  narrow : unitAddressSize ≤ 8 → header.encoding.addressSize ≤ 8
  spelled : header.encoding.version ≤ 4 → ∀ directory ∈ header.directories, ∃ text, directory = .text text

theorem LineHeader.ensures_oldDirectory :
    Ensures oldDirectory fun found => ∀ directory ∈ found, ∃ text, directory = .text text := by
  refine ensures_last fun path => ensures_pure fun directory found => ?_
  split at found
  next => cases found
  next =>
    cases found
    exact ⟨path, rfl⟩

theorem LineHeader.ensures_tables (encoding : Encoding) :
    Ensures (tables encoding) fun found =>
      encoding.version ≤ 4 → ∀ directory ∈ found.1, ∃ text, directory = .text text := by
  refine ensures_ite (fun _ => ?_) fun recent => ?_
  · refine ensures_bind (ensures_last fun cursor => ensures_untilNone ensures_oldDirectory _) ?_
    exact fun directories spelled => ensures_last fun files => ensures_pure fun _ => spelled
  · exact ensures_last fun directories => ensures_last fun files => ensures_pure fun old => absurd old recent

theorem LineHeader.ensures_body (encoding : Encoding) (program : Bytes) :
    Ensures (LineHeader.body encoding program) fun header => header.encoding = encoding ∧
      (encoding.version ≤ 4 → ∀ directory ∈ header.directories, ∃ text, directory = .text text) := by
  unfold LineHeader.body
  refine ensures_last fun minimumInstructionLength => ensures_unless ?_
  refine ensures_choice (ensures_any _) (ensures_any _) fun maximumOperations _ => ensures_unless ?_
  refine ensures_last fun _ => ensures_last fun lineBase => ensures_last fun lineRange => ?_
  refine ensures_unless <| ensures_last fun opcodeBase => ensures_unless ?_
  refine ensures_last fun operandCounts => ensures_bind (ensures_tables encoding) ?_
  exact fun (directories, files) spelled => ensures_pure ⟨rfl, spelled⟩

theorem LineHeader.ensures_read (unitAddressSize : Nat) :
    Ensures (LineHeader.read unitAddressSize) (Sound unitAddressSize) := by
  unfold LineHeader.read
  refine ensures_last fun (length, format) => ensures_last fun unit => ?_
  refine ensures_inside (Sound unitAddressSize) ?_ fun (header, behind) sound => ensures_pure sound
  refine ensures_last fun version => ensures_unless ?_
  have own : Ensures addressSize fun size => unitAddressSize ≤ 8 → size ≤ 8 :=
    fun cursor size next ran _ => ensures_addressSize _ _ _ ran
  refine ensures_choice own (ensures_pure id) fun size fits => ?_
  refine ensures_ite (fun _ => ensures_last fun segments => ensures_unless ?_) fun _ => ?_
  all_goals
    refine ensures_last fun headerLength => ensures_last fun header => ensures_last fun place => ?_
    refine ensures_inside _ (LineHeader.ensures_body _ _) fun (header, _) ⟨same, spelled⟩ => ?_
    exact ensures_pure ⟨same ▸ fits, same ▸ spelled⟩

theorem Read.runAt_ensures {α : Type} {read : Read α} {holds : α → Prop} (this : Ensures read holds)
    {data : Bytes} {offset : Nat} {value : α} (ran : read.runAt data offset = .ok value) :
    holds value := by
  obtain ⟨cursor, _, ran⟩ := bind_eq_ok.1 ran
  obtain ⟨⟨held, next⟩, ran, same⟩ := bind_eq_ok.1 ran
  cases same
  exact this _ _ _ ran

theorem CompilationUnit.header_of_read {sections : Sections} {header : UnitHeader}
    {unit : CompilationUnit} (reads : CompilationUnit.read sections header = .ok unit) :
    unit.header = header := by
  unfold CompilationUnit.read at reads
  obtain ⟨abbreviations, _, reads⟩ := bind_eq_ok.1 reads
  obtain ⟨root, _, reads⟩ := bind_eq_ok.1 reads
  obtain ⟨stop, _, reads⟩ := bind_eq_ok.1 reads
  obtain ⟨lineHeader, _, reads⟩ := bind_eq_ok.1 reads
  dsimp only at reads
  split at reads
  all_goals
    obtain ⟨low, _, reads⟩ := bind_eq_ok.1 reads
    cases reads
    rfl

theorem CompilationUnit.lineHeader_sound {sections : Sections} {header : UnitHeader}
    {unit : CompilationUnit} (reads : CompilationUnit.read sections header = .ok unit) :
    ∀ program ∈ unit.lineHeader, program.Sound header.encoding.addressSize := by
  unfold CompilationUnit.read at reads
  obtain ⟨abbreviations, _, reads⟩ := bind_eq_ok.1 reads
  obtain ⟨root, _, reads⟩ := bind_eq_ok.1 reads
  obtain ⟨stop, _, reads⟩ := bind_eq_ok.1 reads
  obtain ⟨lineHeader, program, reads⟩ := bind_eq_ok.1 reads
  have same : unit.lineHeader = lineHeader := by
    dsimp only at reads
    split at reads
    all_goals
      obtain ⟨low, _, reads⟩ := bind_eq_ok.1 reads
      cases reads
      rfl
  rw [same]
  intro held member
  cases offset : lastOffset? root.attributes [Name.stmtList] with
  | none =>
    rw [offset] at program
    cases program
    cases member
  | some offset =>
    rw [offset, Option.mapM_some] at program
    obtain ⟨first, ran, same⟩ := bind_eq_ok.1 program
    cases same
    cases member
    exact Read.runAt_ensures (LineHeader.ensures_read _) ran

end Symbolizer.Dwarf
