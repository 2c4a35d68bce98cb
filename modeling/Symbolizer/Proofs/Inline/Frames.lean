import Symbolizer.Proofs.Inline.Walk

/-!
The frames at an address, told from the tree of entries. Scopes whose ranges miss the address are cut
out with all that is below them, the others are listed from the leaves up to the first subprogram,
and each frame pairs the name of a scope with the place that the scope in front of it was called from.
-/

namespace Symbolizer.ScopeSource

open Dwarf (Entry Tree)

/-- An entry that is no scope is kept whatever its ranges. -/
def keeps (ranges : Entry → List Dwarf.Range) (target : UInt64) (entry : Entry) : Bool :=
  !isScope entry || (ranges entry).any (·.contains target.toNat)

def upToSubprogram : List Entry → List Entry
  | [] => []
  | scope :: outer => if isSubprogram scope then [scope] else scope :: upToSubprogram outer

def scopesLeft (keep : Entry → Bool) (tree : Tree) : List Entry :=
  (tree.prune keep).postOrder.filter isScope

def numberOf (entry : Entry) (name : Nat) : Option Nat :=
  (entry.attributes.find? (·.name == name)).bind fun attr => attr.value.constant?

/-- Nothing without a call file, or with one that is not in the table. -/
def callSite (lines : LineTable) (entry : Entry) : Option SourceLocation := do
  let file ← (numberOf entry Dwarf.Name.callFile).bind (lines.fileName? ∘ UInt64.ofNat)
  return ⟨file, saturate ((numberOf entry Dwarf.Name.callLine).getD 0),
    saturate ((numberOf entry Dwarf.Name.callColumn).getD 0)⟩

/-- One frame for each scope, and one without a name behind a chain without a subprogram. -/
def framesOf (lines : LineTable) (name : Entry → Option SymbolName) (leaf : Option SourceLocation)
    (chain : List Entry) : List LogicalFrame :=
  List.zipWith LogicalFrame.mk (leaf :: chain.map (callSite lines))
    (chain.map name ++ if chain.any isSubprogram then [] else [none])

def scopeFor (lines : LineTable) (name : Entry → Option SymbolName) (entry : Entry) : Scope :=
  ⟨name entry, if isSubprogram entry then none else callSite lines entry, isSubprogram entry⟩

/-! Chains of entries. -/

theorem upToSubprogram_append (inner outer : List Entry) :
    upToSubprogram (inner ++ outer) =
      if inner.any isSubprogram then upToSubprogram inner
      else upToSubprogram inner ++ upToSubprogram outer := by
  induction inner with
  | nil => rfl
  | cons scope inner ih =>
    rw [List.cons_append, upToSubprogram, upToSubprogram, ih, List.any_cons]
    cases isSubprogram scope with
    | true => rfl
    | false =>
      cases inner.any isSubprogram <;> rfl

theorem expandChain_upToSubprogram (lines : LineTable) (name : Entry → Option SymbolName)
    (leaf : Option SourceLocation) (scopes : List Entry) :
    expandChain leaf ((upToSubprogram scopes).map (scopeFor lines name)) =
      framesOf lines name leaf (upToSubprogram scopes) := by
  induction scopes generalizing leaf with
  | nil => rfl
  | cons scope outer ih =>
    rw [upToSubprogram]
    cases ends : isSubprogram scope with
    | true => simp [framesOf, expandChain, scopeFor, ends]
    | false =>
      simp only [Bool.false_eq_true, ↓reduceIte, List.map_cons, expandChain, scopeFor, ends]
      rw [ih]
      simp [framesOf, ends]

/-! Scopes as they are read. -/

variable {source : ScopeSource} {name : Entry → Option SymbolName} {keep : Entry → Bool}

theorem constant?_eq {entry : Entry} {stop : Dwarf.Cursor} (stops : entry.stop = .ok stop) (attr : Nat) :
    constant? entry attr = .ok (numberOf entry attr) := by
  unfold constant? numberOf NameSource.attribute? Entry.attribute?
  cases entry.attributes.find? (·.name == attr) with
  | none => simp only [stops]; rfl
  | some attr => rfl

theorem callSite?_eq {entry : Entry} {stop : Dwarf.Cursor} (stops : entry.stop = .ok stop) :
    source.callSite? entry = .ok (callSite source.lines entry) := by
  unfold callSite? callSite
  simp only [constant?_eq stops, bind, Except.bind]
  cases (numberOf entry Dwarf.Name.callFile).bind (source.lines.fileName? ∘ UInt64.ofNat) with
  | none => rfl
  | some file => rfl

theorem scopeOf_eq {entry : Entry} (stops : ∃ stop, entry.stop = .ok stop)
    (named : source.functionName? source.unit entry = .ok (name entry)) :
    source.scopeOf entry (isSubprogram entry) = .ok (scopeFor source.lines name entry) := by
  obtain ⟨stop, stops⟩ := stops
  unfold scopeOf scopeFor
  rw [named]
  cases isSubprogram entry with
  | true => rfl
  | false =>
    simp only [Bool.false_eq_true, ↓reduceIte, callSite?_eq stops, bind, Except.bind]
    rfl

theorem scopesLeft_node (entry : Entry) (children : Tree) (behind : Option Dwarf.Cursor) (next : Tree) :
    scopesLeft keep (.node entry children behind next) =
      if keep entry then
        scopesLeft keep children ++ ((if isScope entry then [entry] else []) ++ scopesLeft keep next)
      else scopesLeft keep next := by
  unfold scopesLeft
  rw [Tree.prune]
  split
  next =>
    rw [Tree.postOrder, List.filter_append, List.filter_cons]
    cases isScope entry <;> rfl
  next => rfl

/-- The walk lists the scopes that are left up to the first subprogram. -/
theorem scopesOf_decoded (tree : Tree) (stops : ∀ entry ∈ tree.postOrder, ∃ stop, entry.stop = .ok stop)
    (named : ∀ entry ∈ upToSubprogram (scopesLeft keep tree),
      source.functionName? source.unit entry = .ok (name entry)) :
    source.scopesOf (tree.decoded keep) =
      .ok ((upToSubprogram (scopesLeft keep tree)).map (scopeFor source.lines name),
        (scopesLeft keep tree).any isSubprogram) := by
  induction tree with
  | done => rfl
  | node entry children behind next inner outer =>
    have inner := inner fun other member => stops other (by simp [Tree.postOrder, member])
    have outer := outer fun other member => stops other (by simp [Tree.postOrder, member])
    rw [scopesLeft_node] at named ⊢
    rw [Tree.decoded]
    cases kept : keep entry with
    | false =>
      rw [kept] at named
      simp only [scopesOf_node, scopesOf, outer named, bind, Except.bind, Bool.false_and, Bool.false_eq_true,
        ↓reduceIte, List.nil_append]
      rfl
    | true =>
      rw [kept, if_pos rfl, upToSubprogram_append] at named
      have below := inner fun other member => named other (by split <;> simp [member])
      simp only [scopesOf_node, below, bind, Except.bind, upToSubprogram_append, List.any_append,
        Bool.true_and, ↓reduceIte]
      cases ended : (scopesLeft keep children).any isSubprogram with
      | true => rfl
      | false =>
        rw [ended] at named
        cases scope : isScope entry with
        | false =>
          have later := outer fun other member => named other (by simp [scope, member])
          simp only [later]
          exact congrArg (fun list => Except.ok (list, _)) List.map_append.symm
        | true =>
          have read := scopeOf_eq (stops entry (by simp [Tree.postOrder]))
            (named entry (by simp [scope, upToSubprogram]; split <;> simp))
          cases subprogram : isSubprogram entry with
          | true =>
            rw [subprogram] at read
            simp [read, subprogram, upToSubprogram]
            rfl
          | false =>
            have later := outer fun other member =>
              named other (by simp [scope, upToSubprogram, subprogram, member])
            rw [subprogram] at read
            simp [read, later, subprogram, upToSubprogram]
            rfl

theorem covers_eq {ranges : List Dwarf.Range} (address : Nat) :
    Dwarf.RangeList.covers ⟨ranges, none⟩ address = .ok (ranges.any (·.contains address)) := by
  unfold Dwarf.RangeList.covers
  cases ranges.any (·.contains address) <;> rfl

theorem enters_eq {ranges : Entry → List Dwarf.Range} {entry : Entry}
    (known : isScope entry = true →
      source.unit.entryRanges source.sections entry = .ok ⟨ranges entry, none⟩) (target : UInt64) :
    source.enters target entry = .ok (keeps ranges target entry) := by
  unfold enters keeps
  rw [kind_of_scope]
  cases scope : isScope entry with
  | false =>
    rw [(Bool.or_eq_false_iff.1 scope).1]
    rfl
  | true =>
    rw [known scope]
    cases isSubprogram entry <;> exact congrArg (mapDwarf _) (covers_eq _)

/-- The frames at an address are those of the scopes that hold it, when the sibling references that are
followed past the other scopes lead behind them. Nothing is asked of what the walk does not come to. -/
theorem resolve_eq_framesOf {source : ScopeSource} {tree : Tree} {ranges : Entry → List Dwarf.Range}
    {name : Entry → Option SymbolName} (spells : source.unit.SpellsTree tree) (target : UInt64)
    (ranged : ∀ entry ∈ tree.reached (keeps ranges target) isSubprogram, isScope entry = true →
      source.unit.entryRanges source.sections entry = .ok ⟨ranges entry, none⟩)
    (named : ∀ entry ∈ upToSubprogram (scopesLeft (keeps ranges target) tree),
      source.functionName? source.unit entry = .ok (name entry))
    (passable : tree.PassableOutside (keeps ranges target) isSubprogram source.unit.header)
    (leaf : Option SourceLocation) :
    source.resolve target leaf =
      .ok (framesOf source.lines name leaf (upToSubprogram (scopesLeft (keeps ranges target) tree))) := by
  obtain ⟨forest, decoded, seen⟩ :=
    spells.forest_upTo (fun entry member => enters_eq (ranged entry member) target) passable
  have scopes : source.scopesOf forest = source.scopesOf (tree.decoded (keeps ranges target)) := by
    rw [← scopesOf_upTo, seen, scopesOf_upTo]
  rw [resolve, decoded]
  simp only [mapDwarf, scopes, scopesOf_decoded tree spells.stops named, bind, Except.bind]
  exact congrArg Except.ok (expandChain_upToSubprogram _ _ _ _)

/-! Ranges, names and entries as a source reads them. -/

def rangesIn (source : ScopeSource) (entry : Entry) : List Dwarf.Range :=
  match source.unit.entryRanges source.sections entry with
  | .ok list => list.ranges
  | .error _ => []

def nameIn (source : ScopeSource) (entry : Entry) : Option SymbolName :=
  match source.functionName? source.unit entry with
  | .ok name => name
  | .error _ => none

def entryIn (source : ScopeSource) (offset : Nat) : Entry :=
  match source.unit.entryAt offset with
  | .ok entry => entry
  | .error fault => ⟨offset, 0, false, [], .error fault⟩

def ReadsScope (source : ScopeSource) (entry : Entry) : Prop :=
  isScope entry = true →
    source.unit.entryRanges source.sections entry = .ok ⟨rangesIn source entry, none⟩ ∧
      source.functionName? source.unit entry = .ok (nameIn source entry)

def placeIn (source : ScopeSource) (offset : Nat) : Dwarf.Cursor :=
  ⟨offset, source.unit.header.entries.drop (offset - source.unit.header.headerSize)⟩

def sourceOf (entries : Bytes) : ScopeSource where
  sections := ⟨[], [], [], [], [], [], [], [], []⟩
  index := ⟨[]⟩
  naming := ⟨false, ⟨fun _ => none, fun _ => none⟩⟩
  lines := ⟨[], ["a.c"], 1⟩
  unit := {
    header := ⟨0, ⟨.dwarf32, 4, 1⟩, 0, 11, entries⟩
    abbreviations := [
      ⟨1, 0x11, true, []⟩,
      ⟨2, 0x2e, true, [⟨3, 8, none⟩, ⟨0x11, 1, none⟩, ⟨0x12, 0xb, none⟩, ⟨1, 0x11, none⟩]⟩,
      ⟨3, 0x1d, false, [⟨3, 8, none⟩, ⟨0x11, 1, none⟩, ⟨0x12, 0xb, none⟩, ⟨0x58, 0xb, none⟩, ⟨0x59, 0xb, none⟩]⟩,
      ⟨4, 0xb, true, []⟩]
    bases := ⟨0, 0, 0⟩
    lowPc := 0
    compDir := none
    lineHeader := none
  }

/-- Four subprograms. The second has a block and two inlined calls in it; the sibling reference of the third
leads behind the fourth. -/
def strayBehind : ScopeSource :=
  sourceOf [1,
    2, 0x6b, 0, 0x60, 0x10, 0x13, 0,
    2, 0x66, 0, 0x10, 0x40, 0x2a,
    4, 3, 0x67, 0, 0x20, 0x10, 1, 7, 0,
    3, 0x68, 0, 0x30, 8, 1, 9, 0,
    2, 0x6c, 0, 0x60, 0x10, 0x38, 0,
    2, 0x6d, 0, 0x20, 0x10, 0x38, 0, 0]

def strayBlock : Tree :=
  .node (entryIn strayBehind 26) .done (some (placeIn strayBehind 33)) .done

def strayCalls : Tree :=
  .node (entryIn strayBehind 25) strayBlock (some (placeIn strayBehind 34))
    (.node (entryIn strayBehind 34) .done (some (placeIn strayBehind 41)) .done)

def strayLater : Tree :=
  .node (entryIn strayBehind 42) .done (some (placeIn strayBehind 49))
    (.node (entryIn strayBehind 49) .done (some (placeIn strayBehind 56)) .done)

def strayTree : Tree :=
  .node (entryIn strayBehind 12) .done (some (placeIn strayBehind 19))
    (.node (entryIn strayBehind 19) strayCalls (some (placeIn strayBehind 42)) strayLater)

theorem strayBehind_spells : strayBehind.unit.SpellsTree strayTree := by
  have block : strayBehind.unit.Spells (placeIn strayBehind 26) strayBlock (some (placeIn strayBehind 34)) :=
    .leaf (by decide) rfl rfl rfl (.null (by decide) rfl)
  have calls : strayBehind.unit.Spells (placeIn strayBehind 25) strayCalls (some (placeIn strayBehind 42)) :=
    .parent (by decide) rfl rfl rfl block (.leaf (by decide) rfl rfl rfl (.null (by decide) rfl))
  have later : strayBehind.unit.Spells (placeIn strayBehind 42) strayLater (some (placeIn strayBehind 57)) :=
    .parent (by decide) rfl rfl rfl (.null (by decide) rfl)
      (.parent (by decide) rfl rfl rfl (.null (by decide) rfl) (.null (by decide) rfl))
  have first : strayBehind.unit.Spells (placeIn strayBehind 12) strayTree (some (placeIn strayBehind 57)) :=
    .parent (by decide) rfl rfl rfl (.null (by decide) rfl) (.parent (by decide) rfl rfl rfl calls later)
  exact ⟨entryIn strayBehind 11, rfl,
    fun _ => ⟨placeIn strayBehind 12, some (placeIn strayBehind 57), rfl, first⟩, nofun⟩

theorem strayBehind_reached :
    strayTree.reached (keeps (rangesIn strayBehind) 0x25) isSubprogram =
      [12, 26, 25, 34, 19].map (entryIn strayBehind) := rfl

theorem strayBehind_reads :
    ∀ entry ∈ strayTree.reached (keeps (rangesIn strayBehind) 0x25) isSubprogram,
      ReadsScope strayBehind entry := by
  rw [strayBehind_reached]
  simp only [List.map_cons, List.map_nil, List.forall_mem_cons, List.not_mem_nil, false_imp_iff,
    implies_true, and_true]
  refine ⟨fun _ => ⟨rfl, ?_⟩, fun _ => ⟨rfl, ?_⟩, nofun, fun _ => ⟨rfl, ?_⟩, fun _ => ⟨rfl, ?_⟩⟩
  all_goals cbv

theorem strayBehind_listed :
    upToSubprogram (scopesLeft (keeps (rangesIn strayBehind) 0x25) strayTree) =
      [entryIn strayBehind 26, entryIn strayBehind 19] := rfl

theorem strayBehind_named :
    ∀ entry ∈ upToSubprogram (scopesLeft (keeps (rangesIn strayBehind) 0x25) strayTree),
      strayBehind.functionName? strayBehind.unit entry = .ok (nameIn strayBehind entry) := by
  have reads := strayBehind_reads
  simp only [strayBehind_reached, List.map_cons, List.map_nil, List.forall_mem_cons] at reads
  rw [strayBehind_listed]
  exact List.forall_mem_cons.2 ⟨(reads.2.1 rfl).2, List.forall_mem_singleton.2 (reads.2.2.2.2.1 rfl).2⟩

theorem strayBehind_stray :
    ¬(entryIn strayBehind 42).LeadsTo strayBehind.unit.header (some (placeIn strayBehind 49)) := by
  intro leads
  rcases leads rfl (placeIn strayBehind 56) rfl with same | ⟨wrong, _⟩
  · cases same
  · cases wrong

theorem strayBehind_passable :
    strayTree.PassableOutside (keeps (rangesIn strayBehind) 0x25) isSubprogram strayBehind.unit.header := by
  have first : (entryIn strayBehind 12).LeadsTo strayBehind.unit.header (some (placeIn strayBehind 19)) := by
    intro _ place jump
    cases jump
    exact .inl rfl
  have call : (entryIn strayBehind 34).LeadsTo strayBehind.unit.header (some (placeIn strayBehind 41)) := by
    intro fertile
    cases fertile
  -- Nothing is asked of the two subprograms behind the one that ends the walk.
  exact ⟨⟨first, fun _ => trivial, trivial⟩, fun _ =>
    ⟨⟨⟨trivial, fun _ => trivial⟩, fun _ => ⟨⟨call, fun _ => trivial, trivial⟩, fun _ => trivial⟩⟩, nofun⟩⟩

/-- The stray reference stands behind the subprogram that ends the walk, and does no harm. -/
theorem resolve_eq_framesOf_strayBehind :
    strayBehind.unit.SpellsTree strayTree ∧
      (∀ entry ∈ strayTree.reached (keeps (rangesIn strayBehind) 0x25) isSubprogram,
        ReadsScope strayBehind entry) ∧
      upToSubprogram (scopesLeft (keeps (rangesIn strayBehind) 0x25) strayTree) =
        [entryIn strayBehind 26, entryIn strayBehind 19] ∧
      ¬(entryIn strayBehind 42).LeadsTo strayBehind.unit.header (some (placeIn strayBehind 49)) ∧
      strayTree.PassableOutside (keeps (rangesIn strayBehind) 0x25) isSubprogram strayBehind.unit.header ∧
      strayBehind.resolve 0x25 (some ⟨"a.c", 3, 1⟩) =
        .ok [⟨some ⟨"a.c", 3, 1⟩, some ⟨"g", none, .c⟩⟩, ⟨some ⟨"a.c", 7, 0⟩, some ⟨"f", none, .c⟩⟩] := by
  refine ⟨strayBehind_spells, strayBehind_reads, strayBehind_listed, strayBehind_stray, strayBehind_passable, ?_⟩
  rw [resolve_eq_framesOf strayBehind_spells 0x25
    (fun entry member scope => (strayBehind_reads entry member scope).1) strayBehind_named strayBehind_passable]
  cbv

/-- Two subprograms; the sibling reference of the first leads behind the second. -/
def astray : ScopeSource :=
  sourceOf [1,
    2, 0x66, 0, 0x10, 0x10, 0x1a, 0,
    2, 0x67, 0, 0x20, 0x10, 0x1a, 0, 0]

def astrayTree : Tree :=
  .node (entryIn astray 12) .done (some (placeIn astray 19))
    (.node (entryIn astray 19) .done (some (placeIn astray 26)) .done)

/-- The second subprogram holds the address and is not found. -/
theorem resolve_ne_framesOf_astray :
    astray.unit.SpellsTree astrayTree ∧ (∀ entry ∈ astrayTree.postOrder, ReadsScope astray entry) ∧
      framesOf astray.lines (nameIn astray) none
          (upToSubprogram (scopesLeft (keeps (rangesIn astray) 0x25) astrayTree)) =
        [⟨none, some ⟨"g", none, .c⟩⟩] ∧
      astray.resolve 0x25 none = .ok [⟨none, none⟩] := by
  have second : astray.unit.Spells (placeIn astray 19)
      (.node (entryIn astray 19) .done (some (placeIn astray 26)) .done) (some (placeIn astray 27)) :=
    .parent (by decide) rfl rfl rfl (.null (by decide) rfl) (.null (by decide) rfl)
  have first : astray.unit.Spells (placeIn astray 12) astrayTree (some (placeIn astray 27)) :=
    .parent (by decide) rfl rfl rfl (.null (by decide) rfl) second
  have listed : astrayTree.postOrder = [entryIn astray 12, entryIn astray 19] := rfl
  refine ⟨⟨entryIn astray 11, rfl, fun _ => ⟨placeIn astray 12, some (placeIn astray 27), rfl, first⟩, nofun⟩,
    ?_, ?_, ?_⟩
  · simp only [listed, List.forall_mem_cons, List.not_mem_nil, false_imp_iff, implies_true, and_true]
    refine ⟨fun _ => ⟨rfl, ?_⟩, fun _ => ⟨rfl, ?_⟩⟩
    all_goals cbv
  · cbv
  · cbv

end Symbolizer.ScopeSource
