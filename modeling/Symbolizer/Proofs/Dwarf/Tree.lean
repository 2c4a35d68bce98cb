import Symbolizer.Proofs.Dwarf.Progress

/-!
The tree of entries that the bytes of a unit spell, read without regard to any address. Decoding it
under a rule that says which entries are entered gives the tree cut down by that rule, as long as the
sibling references that are followed on the way lead to where the children of their entries end. A walk
that ends with one of the entries asks this only of the references in front of its end.
-/

namespace Symbolizer.Dwarf

/-- A list of siblings, each with its children and the place behind these, unless the unit ends with
them. -/
inductive Tree where
  | done
  | node (entry : Entry) (children : Tree) (behind : Option Cursor) (next : Tree)

namespace Forest

def holds (test : Entry → Bool) : Forest → Bool
  | .node entry entered children next =>
    children.holds test || (entered && test entry) || next.holds test
  | _ => false

/-- A forest as far as a walk from the leaves up sees it that ends with the first entry that is entered and
passes a test. -/
def upTo (ends : Entry → Bool) : Forest → Forest
  | .node entry entered children next =>
    .node entry entered (children.upTo ends)
      (if (node entry entered children done).holds ends then .done else next.upTo ends)
  | forest => forest

variable {ends : Entry → Bool} {entry : Entry} {entered : Bool} {forest children others next later : Forest}

theorem holds_first_iff :
    (node entry entered children done).holds ends = false ↔
      children.holds ends = false ∧ (entered && ends entry) = false := by
  simp only [holds, Bool.or_false, Bool.or_eq_false_iff]

theorem holds_node (entry : Entry) (entered : Bool) (children next : Forest) :
    (node entry entered children next).holds ends =
      ((node entry entered children done).holds ends || next.holds ends) := by
  simp only [holds, Bool.or_false]

theorem holds_upTo (forest : Forest) : (forest.upTo ends).holds ends = forest.holds ends := by
  induction forest with
  | done => rfl
  | failed fault => rfl
  | node entry entered children next inner outer =>
    rw [upTo, holds_node, holds_node entry entered children next]
    have first : (node entry entered (children.upTo ends) done).holds ends =
        (node entry entered children done).holds ends := by
      simp only [holds, inner]
    rw [first]
    cases (node entry entered children done).holds ends with
    | true => rfl
    | false => exact outer

theorem upTo_node_congr (below : children.upTo ends = others.upTo ends)
    (behind : (node entry entered others done).holds ends = false → next.upTo ends = later.upTo ends) :
    (node entry entered children next).upTo ends = (node entry entered others later).upTo ends := by
  have first : (node entry entered children done).holds ends =
      (node entry entered others done).holds ends := by
    simp only [holds, ← holds_upTo children, below, holds_upTo]
  rw [upTo, upTo, below, first]
  cases ended : (node entry entered others done).holds ends with
  | true => rfl
  | false => simp only [Bool.false_eq_true, ↓reduceIte, behind ended]

end Forest

/-- Reading on from a place is reading on behind a list of siblings. -/
def Cursor.Meets (place : Cursor) (behind : Option Cursor) : Prop :=
  behind = some place ∨ behind = none ∧ place.rest = []

/-- The sibling reference of an entry, if it has one, leads behind its children. -/
def Entry.LeadsTo (entry : Entry) (header : UnitHeader) (behind : Option Cursor) : Prop :=
  entry.hasChildren = true → ∀ place, entry.sibling? header = some place → place.Meets behind

namespace Tree

def postOrder : Tree → List Entry
  | done => []
  | node entry children _ next => children.postOrder ++ entry :: next.postOrder

/-- Drops the entries that are not kept, each with everything below it. -/
def prune (keep : Entry → Bool) : Tree → Tree
  | done => done
  | node entry children behind next =>
    if keep entry then node entry (children.prune keep) behind (next.prune keep) else next.prune keep

def decoded (keep : Entry → Bool) : Tree → Forest
  | done => .done
  | node entry children _ next =>
    if keep entry then .node entry true (children.decoded keep) (next.decoded keep)
    else .node entry false .done (next.decoded keep)

/-- Passing over a list of siblings, no sibling reference leads astray. What is below an entry with a
reference is not looked at. -/
def Passable (header : UnitHeader) : Tree → Prop
  | done => True
  | node entry children behind next =>
    entry.LeadsTo header behind ∧ (entry.sibling? header = none → children.Passable header) ∧
      next.Passable header

/-- The entries that a walk comes to: none below an entry that is not kept, and none behind the first kept
entry of the kind that ends it. -/
def reached (keep ends : Entry → Bool) : Tree → List Entry
  | done => []
  | node entry children behind next =>
    (if keep entry then children.reached keep ends else []) ++ entry ::
      if ((node entry children behind done).decoded keep).holds ends then [] else next.reached keep ends

/-- No sibling reference leads astray when a walk passes over the entries that are not kept. -/
def PassableOutside (keep ends : Entry → Bool) (header : UnitHeader) : Tree → Prop
  | done => True
  | node entry children behind next =>
    (if keep entry then children.PassableOutside keep ends header
      else (node entry children behind done).Passable header) ∧
      (((node entry children behind done).decoded keep).holds ends = false →
        next.PassableOutside keep ends header)

variable {keep ends : Entry → Bool} {entry other : Entry} {children next : Tree} {behind : Option Cursor}

theorem mem_reached_self : entry ∈ (node entry children behind next).reached keep ends :=
  List.mem_append_right _ List.mem_cons_self

theorem mem_reached_below (kept : keep entry = true) (member : other ∈ children.reached keep ends) :
    other ∈ (node entry children behind next).reached keep ends := by
  rw [reached, if_pos kept]
  exact List.mem_append_left _ member

theorem mem_reached_behind (goes_on : ((node entry children behind done).decoded keep).holds ends = false)
    (member : other ∈ next.reached keep ends) :
    other ∈ (node entry children behind next).reached keep ends := by
  rw [reached, goes_on]
  exact List.mem_append_right _ (List.mem_cons_of_mem _ member)

theorem PassableOutside.passed {header : UnitHeader}
    (passable : (node entry children behind next).PassableOutside keep ends header)
    (dropped : keep entry = false) : (node entry children behind done).Passable header := by
  have here := passable.1
  rwa [dropped] at here

theorem PassableOutside.below {header : UnitHeader}
    (passable : (node entry children behind next).PassableOutside keep ends header)
    (kept : keep entry = true) : children.PassableOutside keep ends header := by
  have here := passable.1
  rwa [kept] at here

end Tree

namespace CompilationUnit

/-- The bytes from a cursor on spell a list of siblings, up to a place behind it or to the end of the
unit. -/
inductive Spells (unit : CompilationUnit) : Cursor → Tree → Option Cursor → Prop
  | ends {cursor : Cursor} (finished : cursor.rest = []) : Spells unit cursor .done none
  | null {cursor next : Cursor} (more : cursor.rest ≠ [])
      (here : unit.item cursor = .ok (.null next)) : Spells unit cursor .done (some next)
  | leaf {cursor stop : Cursor} {entry : Entry} {siblings : Tree} {place : Option Cursor}
      (more : cursor.rest ≠ []) (here : unit.item cursor = .ok (.entry entry))
      (childless : entry.hasChildren = false) (stops : entry.stop = .ok stop)
      (rest : Spells unit stop siblings place) :
      Spells unit cursor (.node entry .done (some stop) siblings) place
  | parent {cursor stop behind : Cursor} {entry : Entry} {children siblings : Tree}
      {place : Option Cursor} (more : cursor.rest ≠ [])
      (here : unit.item cursor = .ok (.entry entry)) (fertile : entry.hasChildren = true)
      (stops : entry.stop = .ok stop) (inside : Spells unit stop children (some behind))
      (rest : Spells unit behind siblings place) :
      Spells unit cursor (.node entry children (some behind) siblings) place
  | last {cursor stop : Cursor} {entry : Entry} {children : Tree} (more : cursor.rest ≠ [])
      (here : unit.item cursor = .ok (.entry entry)) (fertile : entry.hasChildren = true)
      (stops : entry.stop = .ok stop) (inside : Spells unit stop children none) :
      Spells unit cursor (.node entry children none .done) none

def SpellsTree (unit : CompilationUnit) (tree : Tree) : Prop :=
  ∃ root, unit.item unit.header.start = .ok (.entry root) ∧
    (root.hasChildren = true → ∃ stop place, root.stop = .ok stop ∧ unit.Spells stop tree place) ∧
    (root.hasChildren = false → tree = .done)

variable {unit : CompilationUnit} {cursor : Cursor} {tree : Tree} {place : Option Cursor}

theorem Spells.consumes (spells : unit.Spells cursor tree place) :
    ∀ next, place = some next → next.rest.length < cursor.rest.length := by
  induction spells with
  | ends => nofun
  | null more here =>
    intro next same
    cases same
    exact item_consumes here
  | leaf more here childless stops rest ih =>
    intro next same
    exact Nat.lt_trans (ih next same) (item_consumes here _ stops)
  | parent more here fertile stops inside rest inner outer =>
    intro next same
    exact Nat.lt_trans (outer next same) (Nat.lt_trans (inner _ rfl) (item_consumes here _ stops))
  | last => nofun

theorem Spells.stops (spells : unit.Spells cursor tree place) :
    ∀ entry ∈ tree.postOrder, ∃ stop, entry.stop = .ok stop := by
  induction spells with
  | ends => nofun
  | null => nofun
  | leaf more here childless stops rest ih =>
    exact List.forall_mem_cons.2 ⟨⟨_, stops⟩, ih⟩
  | parent more here fertile stops inside rest inner outer =>
    exact List.forall_mem_append.2 ⟨inner, List.forall_mem_cons.2 ⟨⟨_, stops⟩, outer⟩⟩
  | last more here fertile stops inside ih =>
    exact List.forall_mem_append.2 ⟨ih, List.forall_mem_cons.2 ⟨⟨_, stops⟩, nofun⟩⟩

theorem SpellsTree.stops (spells : unit.SpellsTree tree) :
    ∀ entry ∈ tree.postOrder, ∃ stop, entry.stop = .ok stop := by
  obtain ⟨root, _, parent, childless⟩ := spells
  cases fertile : root.hasChildren with
  | true =>
    obtain ⟨stop, place, _, inside⟩ := parent fertile
    exact inside.stops
  | false =>
    rw [childless fertile]
    nofun

/-! Passing over siblings. -/

theorem passSiblings_finished (finished : cursor.rest = []) (fuel depth : Nat) :
    unit.passSiblings (fuel + 1) (depth + 1) cursor = .ok none := by
  rw [passSiblings, finished]
  rfl

theorem passSiblings_null {next : Cursor} (more : cursor.rest ≠ [])
    (here : unit.item cursor = .ok (.null next)) (fuel depth : Nat) :
    unit.passSiblings (fuel + 1) (depth + 1) cursor = unit.passSiblings fuel depth next := by
  rw [passSiblings, if_neg (by simpa using more), here]
  rfl

theorem passSiblings_leaf {entry : Entry} {stop : Cursor} (more : cursor.rest ≠ [])
    (here : unit.item cursor = .ok (.entry entry)) (childless : entry.hasChildren = false)
    (stops : entry.stop = .ok stop) (fuel depth : Nat) :
    unit.passSiblings (fuel + 1) (depth + 1) cursor = unit.passSiblings fuel (depth + 1) stop := by
  rw [passSiblings, if_neg (by simpa using more), here]
  simp only [childless, stops, bind, Except.bind, Bool.not_false, ↓reduceIte]

theorem passSiblings_jump {entry : Entry} {next : Cursor} (more : cursor.rest ≠ [])
    (here : unit.item cursor = .ok (.entry entry)) (fertile : entry.hasChildren = true)
    (jump : entry.sibling? unit.header = some next) (fuel depth : Nat) :
    unit.passSiblings (fuel + 1) (depth + 1) cursor = unit.passSiblings fuel (depth + 1) next := by
  rw [passSiblings, if_neg (by simpa using more), here]
  simp only [fertile, jump, bind, Except.bind, Bool.not_true, Bool.false_eq_true, ↓reduceIte]

theorem passSiblings_descend {entry : Entry} {stop : Cursor} (more : cursor.rest ≠ [])
    (here : unit.item cursor = .ok (.entry entry)) (fertile : entry.hasChildren = true)
    (stops : entry.stop = .ok stop) (unknown : entry.sibling? unit.header = none) (fuel depth : Nat) :
    unit.passSiblings (fuel + 1) (depth + 1) cursor = unit.passSiblings fuel (depth + 2) stop := by
  rw [passSiblings, if_neg (by simpa using more), here]
  simp only [fertile, stops, unknown, bind, Except.bind, Bool.not_true, Bool.false_eq_true, ↓reduceIte]

theorem Spells.passed (spells : unit.Spells cursor tree place) (passable : tree.Passable unit.header)
    (depth fuel : Nat) (enough : cursor.rest.length < fuel) :
    (place = none → unit.passSiblings fuel (depth + 1) cursor = .ok none) ∧
      ∀ next, place = some next → ∃ left, next.rest.length < left ∧
        unit.passSiblings fuel (depth + 1) cursor = unit.passSiblings left depth next := by
  induction spells generalizing depth fuel with
  | ends finished =>
    obtain ⟨fuel, rfl⟩ := Nat.exists_eq_add_one_of_ne_zero (Nat.ne_zero_of_lt enough)
    exact ⟨fun _ => passSiblings_finished finished fuel depth, nofun⟩
  | null more here =>
    obtain ⟨fuel, rfl⟩ := Nat.exists_eq_add_one_of_ne_zero (Nat.ne_zero_of_lt enough)
    have consumed := item_consumes here
    refine ⟨nofun, fun next same => ?_⟩
    cases same
    exact ⟨fuel, by omega, passSiblings_null more here fuel depth⟩
  | leaf more here childless stops rest ih =>
    obtain ⟨fuel, rfl⟩ := Nat.exists_eq_add_one_of_ne_zero (Nat.ne_zero_of_lt enough)
    have consumed := item_consumes here _ stops
    rw [passSiblings_leaf more here childless stops]
    exact ih passable.2.2 depth fuel (by omega)
  | @parent cursor stop behind entry _ _ _ more here fertile stops inside rest inner outer =>
    obtain ⟨fuel, rfl⟩ := Nat.exists_eq_add_one_of_ne_zero (Nat.ne_zero_of_lt enough)
    have consumed := item_consumes here _ stops
    have shorter := inside.consumes _ rfl
    obtain ⟨leads, below, later⟩ := passable
    cases jump : entry.sibling? unit.header with
    | some next =>
      rcases leads fertile next jump with same | ⟨wrong, _⟩
      · cases same
        rw [passSiblings_jump more here fertile jump]
        exact outer later depth fuel (by omega)
      · cases wrong
    | none =>
      obtain ⟨left, still, same⟩ := (inner (below jump) (depth + 1) fuel (by omega)).2 _ rfl
      rw [passSiblings_descend more here fertile stops jump, same]
      exact outer later depth left still
  | @last cursor stop entry _ more here fertile stops inside ih =>
    obtain ⟨fuel, rfl⟩ := Nat.exists_eq_add_one_of_ne_zero (Nat.ne_zero_of_lt enough)
    have consumed := item_consumes here _ stops
    obtain ⟨leads, below, _⟩ := passable
    refine ⟨fun _ => ?_, nofun⟩
    cases jump : entry.sibling? unit.header with
    | some next =>
      rcases leads fertile next jump with wrong | ⟨_, finished⟩
      · cases wrong
      · obtain ⟨fuel, rfl⟩ := Nat.exists_eq_add_one_of_ne_zero (show fuel ≠ 0 by omega)
        rw [passSiblings_jump more here fertile jump]
        exact passSiblings_finished finished fuel depth
    | none =>
      rw [passSiblings_descend more here fertile stops jump]
      exact (ih (below jump) (depth + 1) fuel (by omega)).1 rfl

/-! Decoding under a rule. -/

variable {enter : Entry → Except Symbolizer.Fault Bool} {keep ends : Entry → Bool}

def onwardFrom (unit : CompilationUnit) (enter : Entry → Except Symbolizer.Fault Bool) (fuel : Nat)
    (place : Option Cursor) : Forest × Option Cursor :=
  place.elim (.done, none) (unit.forestFrom enter fuel)

theorem forestFrom_finished (finished : cursor.rest = []) (fuel : Nat) :
    unit.forestFrom enter fuel cursor = (.done, none) := by
  cases fuel with
  | zero => rfl
  | succ fuel =>
    rw [forestFrom, finished]
    rfl

theorem forestFrom_null {next : Cursor} (more : cursor.rest ≠ [])
    (here : unit.item cursor = .ok (.null next)) (fuel : Nat) :
    unit.forestFrom enter (fuel + 1) cursor = (.done, some next) := by
  rw [forestFrom, if_neg (by simpa using more), here]

theorem behind_childless {entry : Entry} {stop : Cursor} (childless : entry.hasChildren = false)
    (stops : entry.stop = .ok stop) (fuel : Nat) : unit.behind fuel entry = .ok (some stop) := by
  simp only [behind, childless, stops, Bool.not_false, ↓reduceIte]
  rfl

theorem onwardFrom_behind {entry : Entry} {stop : Cursor} {children : Tree}
    (fertile : entry.hasChildren = true) (stops : entry.stop = .ok stop)
    (inside : unit.Spells stop children place)
    (passable : (Tree.node entry children place .done).Passable unit.header) (fuel : Nat)
    (enough : stop.rest.length < fuel) :
    ∃ found, unit.behind fuel entry = .ok found ∧
      unit.onwardFrom enter fuel found = unit.onwardFrom enter fuel place := by
  obtain ⟨leads, below, _⟩ := passable
  unfold behind
  cases jump : entry.sibling? unit.header with
  | some next =>
    refine ⟨some next, by simp [fertile, pure, Except.pure], ?_⟩
    rcases leads fertile next jump with rfl | ⟨rfl, finished⟩
    · rfl
    · exact forestFrom_finished finished fuel
  | none =>
    have passed := inside.passed (below jump) 0 fuel enough
    refine ⟨place, ?_, rfl⟩
    simp only [fertile, stops, bind, Except.bind, Bool.not_true, Bool.false_eq_true, ↓reduceIte]
    cases place with
    | none => exact passed.1 rfl
    | some next =>
      obtain ⟨left, _, same⟩ := passed.2 next rfl
      rw [same, passSiblings]

theorem forestFrom_passed {entry : Entry} {found : Option Cursor} {fuel : Nat}
    (more : cursor.rest ≠ []) (here : unit.item cursor = .ok (.entry entry))
    (drops : enter entry = .ok false) (passed : unit.behind fuel entry = .ok found) :
    unit.forestFrom enter (fuel + 1) cursor =
      (.node entry false .done (unit.onwardFrom enter fuel found).1,
        (unit.onwardFrom enter fuel found).2) := by
  rw [forestFrom, if_neg (by simpa using more), here]
  simp only [drops, passed]
  cases found <;> rfl

theorem forestFrom_entered {entry : Entry} {stop : Cursor} {fuel : Nat} {below : Forest × Option Cursor}
    (more : cursor.rest ≠ []) (here : unit.item cursor = .ok (.entry entry))
    (enters : enter entry = .ok true) (stops : entry.stop = .ok stop)
    (inside : below = if entry.hasChildren then unit.forestFrom enter fuel stop else (.done, some stop)) :
    unit.forestFrom enter (fuel + 1) cursor =
      (.node entry true below.1 (unit.onwardFrom enter fuel below.2).1,
        (unit.onwardFrom enter fuel below.2).2) := by
  obtain ⟨children, place⟩ := below
  rw [forestFrom, if_neg (by simpa using more), here]
  simp only [enters, stops, ← inside]
  cases place <;> rfl

/-- A decoded list of siblings is a forest as far as a walk sees it, and unless the walk ends there, decoding
leads on to a place. -/
structure Reaches (ends : Entry → Bool) (decoded : Forest × Option Cursor) (forest : Forest)
    (place : Option Cursor) : Prop where
  seen : decoded.1.upTo ends = forest.upTo ends
  onward : forest.holds ends = false → decoded.2 = place

theorem Reaches.refl (forest : Forest) (place : Option Cursor) :
    Reaches ends (forest, place) forest place :=
  ⟨rfl, fun _ => rfl⟩

/-- The siblings behind an entry matter only when the walk does not end with it or below it. -/
theorem Reaches.node {entry : Entry} {entered : Bool} {fuel : Nat} {below : Forest × Option Cursor}
    {children siblings : Forest} {behind : Option Cursor} (inside : Reaches ends below children behind)
    (rest : (Forest.node entry entered children .done).holds ends = false →
      Reaches ends (unit.onwardFrom enter fuel behind) siblings place) :
    Reaches ends (.node entry entered below.1 (unit.onwardFrom enter fuel below.2).1,
      (unit.onwardFrom enter fuel below.2).2) (.node entry entered children siblings) place := by
  have goes_on (first : (Forest.node entry entered children .done).holds ends = false) :
      Reaches ends (unit.onwardFrom enter fuel below.2) siblings place := by
    rw [inside.onward (Forest.holds_first_iff.1 first).1]
    exact rest first
  refine ⟨Forest.upTo_node_congr inside.seen fun first => (goes_on first).seen, fun none => ?_⟩
  rw [Forest.holds_node, Bool.or_eq_false_iff] at none
  exact (goes_on none.1).onward none.2

/-- What an entry and its siblings behind come to, from what its children come to when it is entered and
from where it is passed over to when it is not. -/
theorem Reaches.of_entry {entry : Entry} {stop : Cursor} {fuel : Nat} {children next : Tree}
    {behind : Option Cursor} (more : cursor.rest ≠ []) (here : unit.item cursor = .ok (.entry entry))
    (stops : entry.stop = .ok stop) (decides : enter entry = .ok (keep entry))
    (passed : keep entry = false → ∃ found, unit.behind fuel entry = .ok found ∧
      unit.onwardFrom enter fuel found = unit.onwardFrom enter fuel behind)
    (inside : keep entry = true →
      Reaches ends (if entry.hasChildren then unit.forestFrom enter fuel stop else (.done, some stop))
        (children.decoded keep) behind)
    (rest : ((Tree.node entry children behind .done).decoded keep).holds ends = false →
      Reaches ends (unit.onwardFrom enter fuel behind) (next.decoded keep) place) :
    Reaches ends (unit.forestFrom enter (fuel + 1) cursor)
      ((Tree.node entry children behind next).decoded keep) place := by
  rw [Tree.decoded] at rest ⊢
  cases kept : keep entry with
  | false =>
    rw [kept] at decides rest
    obtain ⟨found, skipped, same⟩ := passed kept
    rw [forestFrom_passed more here decides skipped, same]
    exact .node (.refl .done behind) rest
  | true =>
    rw [kept] at decides rest
    rw [forestFrom_entered more here decides stops rfl]
    exact .node (inside kept) rest

/-- The decoded forest is the spelled tree without what is below the entries not kept, as far as a walk sees
it. -/
theorem Spells.forestFrom_reaches (spells : unit.Spells cursor tree place)
    (rule : ∀ entry ∈ tree.reached keep ends, enter entry = .ok (keep entry))
    (passable : tree.PassableOutside keep ends unit.header) (fuel : Nat)
    (enough : cursor.rest.length < fuel) :
    Reaches ends (unit.forestFrom enter fuel cursor) (tree.decoded keep) place := by
  induction spells generalizing fuel with
  | ends finished =>
    rw [forestFrom_finished finished]
    exact .refl _ _
  | null more here =>
    obtain ⟨fuel, rfl⟩ := Nat.exists_eq_add_one_of_ne_zero (Nat.ne_zero_of_lt enough)
    rw [forestFrom_null more here]
    exact .refl _ _
  | leaf more here childless stops rest ih =>
    obtain ⟨fuel, rfl⟩ := Nat.exists_eq_add_one_of_ne_zero (Nat.ne_zero_of_lt enough)
    have consumed := item_consumes here _ stops
    refine .of_entry more here stops (rule _ Tree.mem_reached_self) (fun _ => ?_) (fun _ => ?_) fun goes_on => ?_
    · exact ⟨_, behind_childless childless stops fuel, rfl⟩
    · rw [childless]
      exact .refl _ _
    · exact ih (fun other member => rule other (Tree.mem_reached_behind goes_on member)) (passable.2 goes_on)
        fuel (by omega)
  | parent more here fertile stops inside rest inner outer =>
    obtain ⟨fuel, rfl⟩ := Nat.exists_eq_add_one_of_ne_zero (Nat.ne_zero_of_lt enough)
    have consumed := item_consumes here _ stops
    have shorter := inside.consumes _ rfl
    refine .of_entry more here stops (rule _ Tree.mem_reached_self) (fun dropped => ?_) (fun kept => ?_)
      fun goes_on => ?_
    · exact onwardFrom_behind fertile stops inside (passable.passed dropped) fuel (by omega)
    · rw [if_pos fertile]
      exact inner (fun other member => rule other (Tree.mem_reached_below kept member)) (passable.below kept)
        fuel (by omega)
    · exact outer (fun other member => rule other (Tree.mem_reached_behind goes_on member))
        (passable.2 goes_on) fuel (by omega)
  | last more here fertile stops inside ih =>
    obtain ⟨fuel, rfl⟩ := Nat.exists_eq_add_one_of_ne_zero (Nat.ne_zero_of_lt enough)
    have consumed := item_consumes here _ stops
    refine .of_entry more here stops (rule _ Tree.mem_reached_self) (fun dropped => ?_) (fun kept => ?_)
      fun _ => .refl _ _
    · exact onwardFrom_behind fertile stops inside (passable.passed dropped) fuel (by omega)
    · rw [if_pos fertile]
      exact ih (fun other member => rule other (Tree.mem_reached_below kept member)) (passable.below kept)
        fuel (by omega)

theorem SpellsTree.forest_upTo (spells : unit.SpellsTree tree)
    (rule : ∀ entry ∈ tree.reached keep ends, enter entry = .ok (keep entry))
    (passable : tree.PassableOutside keep ends unit.header) :
    ∃ forest, unit.forest enter = .ok forest ∧ forest.upTo ends = (tree.decoded keep).upTo ends := by
  obtain ⟨root, here, parent, childless⟩ := spells
  unfold forest
  rw [here]
  cases fertile : root.hasChildren with
  | false =>
    rw [childless fertile]
    exact ⟨.done, by simp [fertile, bind, Except.bind, pure, Except.pure], rfl⟩
  | true =>
    obtain ⟨stop, place, stops, below⟩ := parent fertile
    have consumed := item_consumes here _ stops
    have decoded := below.forestFrom_reaches rule passable unit.header.entries.length consumed
    exact ⟨_, by simp [fertile, stops, bind, Except.bind, pure, Except.pure], decoded.seen⟩

end CompilationUnit

end Symbolizer.Dwarf
