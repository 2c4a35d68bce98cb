import Symbolizer.Proofs.Inline.Frames
import Mathlib.Data.List.Chain

/-!
Where the scopes of one chain lie in the tree of entries. A scope stands behind the scopes below it and
behind those of earlier siblings, and the walk does not look whether siblings overlap. So the scopes lie
on one way to the root exactly when no list of siblings has two members with a scope around the address.
-/

namespace Symbolizer.Dwarf

/-- The way down to an entry: at every level the number of siblings in front. -/
abbrev Place := List Nat

namespace Place

def Encloses (outer inner : Place) : Prop :=
  outer <+: inner ∧ outer ≠ inner

/-- Where the two ways part, the first one goes to an earlier sibling. -/
def Precedes (first second : Place) : Prop :=
  ∃ trunk before behind, before < behind ∧ trunk ++ [before] <+: first ∧ trunk ++ [behind] <+: second

/-- Children stand in front of their parents, siblings stand as they are. -/
def InPostOrder (first second : Place) : Prop :=
  Encloses second first ∨ Precedes first second

def beside (place : Place) : Place :=
  place.modifyHead (· + 1)

instance (outer inner : Place) : Decidable (Encloses outer inner) :=
  inferInstanceAs (Decidable (_ ∧ _))

variable {first second : Place}

theorem encloses_cons (index : Nat) (outer inner : Place) :
    Encloses (index :: outer) (index :: inner) ↔ Encloses outer inner := by
  simp [Encloses, List.cons_prefix_cons]

theorem encloses_beside (outer inner : Place) :
    Encloses (beside outer) (beside inner) ↔ Encloses outer inner := by
  cases outer with
  | nil => cases inner <;> simp [Encloses, beside]
  | cons index outer =>
    cases inner <;> simp [Encloses, beside, List.cons_prefix_cons]

theorem Precedes.cons (precedes : Precedes first second) (index : Nat) :
    Precedes (index :: first) (index :: second) := by
  obtain ⟨trunk, before, behind, earlier, left, right⟩ := precedes
  refine ⟨index :: trunk, before, behind, earlier, ?_, ?_⟩
  · exact List.cons_prefix_cons.2 ⟨rfl, left⟩
  · exact List.cons_prefix_cons.2 ⟨rfl, right⟩

theorem Precedes.beside (precedes : Precedes first second) :
    Precedes (beside first) (beside second) := by
  obtain ⟨trunk, before, behind, earlier, ⟨left, rfl⟩, ⟨right, rfl⟩⟩ := precedes
  cases trunk with
  | nil => exact ⟨[], before + 1, behind + 1, by omega, ⟨left, rfl⟩, ⟨right, rfl⟩⟩
  | cons index trunk => exact ⟨(index + 1) :: trunk, before, behind, earlier, ⟨left, rfl⟩, ⟨right, rfl⟩⟩

theorem InPostOrder.cons (ordered : InPostOrder first second) (index : Nat) :
    InPostOrder (index :: first) (index :: second) :=
  ordered.imp (encloses_cons index second first).2 (Precedes.cons · index)

theorem InPostOrder.beside (ordered : InPostOrder first second) :
    InPostOrder (beside first) (beside second) :=
  ordered.imp (encloses_beside second first).2 Precedes.beside

theorem encloses_below {index : Nat} {place : Place} (nonempty : place ≠ []) :
    Encloses [index] (index :: place) := by
  refine ⟨⟨place, rfl⟩, fun same => nonempty ?_⟩
  exact (List.cons.inj same).2.symm

theorem precedes_of_head {before behind : Nat} (earlier : before < behind) (first second : Place) :
    Precedes (before :: first) (behind :: second) :=
  ⟨[], before, behind, earlier, ⟨first, rfl⟩, ⟨second, rfl⟩⟩

theorem not_encloses_of_head {before behind : Nat} (earlier : before < behind) (first second : Place) :
    ¬ Encloses (behind :: second) (before :: first) := by
  intro encloses
  have same := (List.cons_prefix_cons.1 encloses.1).1
  omega

end Place

namespace Forest

open Place (Encloses Precedes InPostOrder beside)
open ScopeSource (isScope isSubprogram isScope_of_isSubprogram not_isSubprogram_of_not_isScope)

def entryAt? : Forest → Place → Option (Entry × Bool)
  | .node entry entered _ _, [0] => some (entry, entered)
  | .node _ _ children _, 0 :: index :: place => children.entryAt? (index :: place)
  | .node _ _ _ next, (index + 1) :: place => next.entryAt? (index :: place)
  | _, _ => none

/-- The places of the scopes that are entered, from the leaves up to the first subprogram. -/
def scopePlaces : Forest → List Place
  | .node entry entered children next =>
    children.scopePlaces.map (0 :: ·) ++
      if children.holds isSubprogram then []
      else if entered && isScope entry then
        [0] :: if isSubprogram entry then [] else next.scopePlaces.map beside
      else next.scopePlaces.map beside
  | _ => []

/-- Of the siblings in front of the end, and of those at every level below, at most one is or has
below it a scope that is entered. -/
def SingleFile : Forest → Prop
  | .node entry entered children next =>
    children.SingleFile ∧
      ((node entry entered children done).holds isSubprogram = false →
        next.SingleFile ∧
          ((node entry entered children done).holds isScope = true → next.holds isScope = false))
  | _ => True

instance decidableSingleFile : (forest : Forest) → Decidable forest.SingleFile
  | .done => .isTrue trivial
  | .failed _ => .isTrue trivial
  | .node _ _ children next =>
    have := decidableSingleFile children
    have := decidableSingleFile next
    inferInstanceAs (Decidable (_ ∧ (_ → _ ∧ (_ → _))))

def Decided (enter : Entry → Except Symbolizer.Fault Bool) : Forest → Prop
  | .node entry entered children next =>
    enter entry = .ok entered ∧ children.Decided enter ∧ next.Decided enter
  | _ => True

variable {forest children next : Forest} {entry : Entry} {entered : Bool} {place : Place}

/-! Scopes in front of the end, and how they lie. -/

theorem holds_scope_of_subprogram (subprogram : forest.holds isSubprogram = true) :
    forest.holds isScope = true := by
  induction forest with
  | done => cases subprogram
  | failed fault => cases subprogram
  | node entry entered children next inner outer =>
    simp only [holds, Bool.or_eq_true, Bool.and_eq_true] at subprogram ⊢
    rcases subprogram with (below | ⟨here, subprogram⟩) | later
    · exact .inl (.inl (inner below))
    · exact .inl (.inr ⟨here, isScope_of_isSubprogram subprogram⟩)
    · exact .inr (outer later)

/-- A sibling with what is below it, and then the siblings behind it unless they are out of reach. -/
theorem scopePlaces_node (entry : Entry) (entered : Bool) (children next : Forest) :
    (node entry entered children next).scopePlaces =
      (node entry entered children done).scopePlaces ++
        if (node entry entered children done).holds isSubprogram then [] else next.scopePlaces.map beside := by
  simp only [scopePlaces, holds, List.map_nil, ite_self, Bool.or_false]
  cases children.holds isSubprogram with
  | true => simp
  | false =>
    cases entered with
    | false => simp
    | true =>
      cases subprogram : isSubprogram entry with
      | true => simp [isScope_of_isSubprogram subprogram]
      | false => cases isScope entry <;> simp

theorem scopePlaces_first (entry : Entry) (entered : Bool) (children : Forest) :
    (node entry entered children done).scopePlaces =
      children.scopePlaces.map (0 :: ·) ++
        if !children.holds isSubprogram && (entered && isScope entry) then [[0]] else [] := by
  simp only [scopePlaces, List.map_nil, ite_self]
  cases children.holds isSubprogram <;> simp

theorem ne_nil_of_mem_scopePlaces (member : place ∈ forest.scopePlaces) : place ≠ [] := by
  induction forest generalizing place with
  | done => cases member
  | failed fault => cases member
  | node entry entered children next inner outer =>
    rw [scopePlaces_node, scopePlaces_first] at member
    rcases List.mem_append.1 member with first | later
    · rcases List.mem_append.1 first with below | own
      · obtain ⟨_, _, rfl⟩ := List.mem_map.1 below
        exact List.cons_ne_nil _ _
      · split at own
        next =>
          rw [List.mem_singleton.1 own]
          exact List.cons_ne_nil _ _
        next => cases own
    · split at later
      next => cases later
      next =>
        obtain ⟨other, listed, rfl⟩ := List.mem_map.1 later
        obtain ⟨index, below, rfl⟩ := List.exists_cons_of_ne_nil (outer listed)
        exact List.cons_ne_nil _ _

theorem head_of_mem_first (member : place ∈ (node entry entered children done).scopePlaces) :
    ∃ below, place = 0 :: below := by
  rw [scopePlaces_first] at member
  rcases List.mem_append.1 member with below | own
  · obtain ⟨other, _, rfl⟩ := List.mem_map.1 below
    exact ⟨other, rfl⟩
  · split at own
    next => exact ⟨[], List.mem_singleton.1 own⟩
    next => cases own

theorem head_of_mem_beside (member : place ∈ next.scopePlaces.map beside) :
    ∃ index below, place = (index + 1) :: below := by
  obtain ⟨other, listed, rfl⟩ := List.mem_map.1 member
  obtain ⟨index, below, rfl⟩ := List.exists_cons_of_ne_nil (ne_nil_of_mem_scopePlaces listed)
  exact ⟨index, below, rfl⟩

theorem scopePlaces_eq_nil_iff : forest.scopePlaces = [] ↔ forest.holds isScope = false := by
  induction forest with
  | done => simp [scopePlaces, holds]
  | failed fault => simp [scopePlaces, holds]
  | node entry entered children next inner outer =>
    rw [scopePlaces_node, scopePlaces_first]
    simp only [holds, List.append_eq_nil_iff, List.map_eq_nil_iff, inner, Bool.or_eq_false_iff]
    cases below : children.holds isScope with
    | true => simp
    | false =>
      have open_below : children.holds isSubprogram = false := by
        by_contra ended
        rw [holds_scope_of_subprogram (Bool.eq_true_of_not_eq_false ended)] at below
        cases below
      cases here : entered && isScope entry with
      | true => simp [open_below]
      | false =>
        simp [open_below, not_isSubprogram_of_not_isScope here, outer]

theorem scopePlaces_inPostOrder (forest : Forest) : forest.scopePlaces.Pairwise InPostOrder := by
  induction forest with
  | done => exact List.Pairwise.nil
  | failed fault => exact List.Pairwise.nil
  | node entry entered children next inner outer =>
    have first : (node entry entered children done).scopePlaces.Pairwise InPostOrder := by
      rw [scopePlaces_first, List.pairwise_append, List.pairwise_map]
      refine ⟨inner.imp fun ordered => ordered.cons 0, ?_, ?_⟩
      · split
        next => exact List.pairwise_singleton _ _
        next => exact List.Pairwise.nil
      · intro below listed own here
        obtain ⟨other, child, rfl⟩ := List.mem_map.1 listed
        split at here
        next =>
          rw [List.mem_singleton.1 here]
          exact .inl (Place.encloses_below (ne_nil_of_mem_scopePlaces child))
        next => cases here
    rw [scopePlaces_node, List.pairwise_append]
    refine ⟨first, ?_, ?_⟩
    · split
      next => exact List.Pairwise.nil
      next => exact List.pairwise_map.2 (outer.imp fun ordered => ordered.beside)
    · intro front listed later behind
      split at behind
      next => cases behind
      next =>
        obtain ⟨below, rfl⟩ := head_of_mem_first listed
        obtain ⟨index, other, rfl⟩ := head_of_mem_beside behind
        exact .inr (Place.precedes_of_head index.succ_pos below other)

theorem scopePlaces_first_isChain (entry : Entry) (entered : Bool) (children : Forest) :
    (node entry entered children done).scopePlaces.IsChain (fun inner outer => Encloses outer inner) ↔
      children.scopePlaces.IsChain (fun inner outer => Encloses outer inner) := by
  rw [scopePlaces_first, List.isChain_append, List.isChain_map]
  simp only [Place.encloses_cons]
  refine ⟨And.left, fun chain => ⟨chain, ?_, ?_⟩⟩
  · split
    next => exact List.isChain_singleton _
    next => exact List.isChain_nil
  · intro last listed own here
    obtain ⟨other, child, rfl⟩ := List.mem_map.1 (List.mem_of_getLast? listed)
    split at here
    next =>
      cases here
      exact Place.encloses_below (ne_nil_of_mem_scopePlaces child)
    next => cases here

theorem siblings_enclose_iff (entry : Entry) (entered : Bool) (children next : Forest) :
    (∀ last ∈ (node entry entered children done).scopePlaces.getLast?,
      ∀ head ∈ (next.scopePlaces.map beside).head?, Encloses head last) ↔
      ((node entry entered children done).holds isScope = true → next.holds isScope = false) := by
  constructor
  · intro meet first
    by_contra later
    have some_first : (node entry entered children done).scopePlaces ≠ [] := by
      rw [Ne, scopePlaces_eq_nil_iff, first]
      exact Bool.noConfusion
    have some_later : next.scopePlaces.map beside ≠ [] := by
      rw [Ne, List.map_eq_nil_iff, scopePlaces_eq_nil_iff]
      exact later
    have encloses := meet _ (List.getLast?_eq_some_getLast some_first) _
      (List.head?_eq_some_head some_later)
    obtain ⟨below, last_place⟩ := head_of_mem_first (List.getLast_mem some_first)
    obtain ⟨index, other, head_place⟩ := head_of_mem_beside (List.head_mem some_later)
    rw [last_place, head_place] at encloses
    exact Place.not_encloses_of_head index.succ_pos below other encloses
  · intro alone last listed head found
    have first : (node entry entered children done).holds isScope = true := by
      by_contra none
      rw [scopePlaces_eq_nil_iff.2 (Bool.eq_false_of_not_eq_true none)] at listed
      cases listed
    rw [scopePlaces_eq_nil_iff.2 (alone first)] at found
    cases found

theorem scopePlaces_isChain_iff (forest : Forest) :
    forest.scopePlaces.IsChain (fun inner outer => Encloses outer inner) ↔ forest.SingleFile := by
  induction forest with
  | done => simp [scopePlaces, SingleFile]
  | failed fault => simp [scopePlaces, SingleFile]
  | node entry entered children next inner outer =>
    rw [scopePlaces_node, List.isChain_append, scopePlaces_first_isChain, inner, SingleFile]
    refine and_congr_right fun _ => ?_
    cases ended : (node entry entered children done).holds isSubprogram with
    | true => simp
    | false =>
      simp only [Bool.false_eq_true, ↓reduceIte, forall_const]
      rw [siblings_enclose_iff, List.isChain_map]
      simp only [Place.encloses_beside, outer]

/-! Forests as they are decoded. -/

theorem Decided.at {enter : Entry → Except Symbolizer.Fault Bool} (decided : forest.Decided enter)
    (here : forest.entryAt? place = some (entry, entered)) : enter entry = .ok entered := by
  induction forest, place using entryAt?.induct with
  | case1 other flag children next =>
    rw [entryAt?] at here
    cases here
    exact decided.1
  | case2 other flag children next index place ih =>
    rw [entryAt?] at here
    exact ih decided.2.1 here
  | case3 other flag children next index place ih =>
    rw [entryAt?] at here
    exact ih decided.2.2 here
  | case4 forest place => simp_all [entryAt?]

end Forest

theorem CompilationUnit.forestFrom_decided (unit : CompilationUnit)
    (enter : Entry → Except Symbolizer.Fault Bool) (fuel : Nat) (cursor : Cursor) : (unit.forestFrom enter fuel cursor).1.Decided enter := by
  induction fuel generalizing cursor with
  | zero => trivial
  | succ fuel ih =>
    rw [forestFrom]
    split
    next => trivial
    next =>
      cases unit.item cursor with
      | error fault => trivial
      | ok item =>
        cases item with
        | null next => trivial
        | entry entry =>
          cases decides : enter entry with
          | error fault =>
            simp only [decides]
            trivial
          | ok entered =>
            cases entered with
            | false =>
              simp only [decides]
              rcases unit.behind fuel entry with fault | _ | next
              · exact ⟨decides, trivial, trivial⟩
              · exact ⟨decides, trivial, trivial⟩
              · exact ⟨decides, trivial, ih next⟩
            | true =>
              simp only [decides]
              rcases entry.stop with fault | start
              · cases entry.hasChildren <;> exact ⟨decides, trivial, trivial⟩
              · cases fertile : entry.hasChildren with
                | false =>
                  simp only [Bool.false_eq_true, ↓reduceIte]
                  exact ⟨decides, trivial, ih start⟩
                | true =>
                  have children := ih start
                  simp only [↓reduceIte]
                  rcases found : unit.forestFrom enter fuel start with ⟨below, place⟩
                  rw [found] at children
                  cases place with
                  | none => exact ⟨decides, children, trivial⟩
                  | some next => exact ⟨decides, children, ih next⟩

theorem CompilationUnit.forest_decided {unit : CompilationUnit}
    {enter : Entry → Except Symbolizer.Fault Bool} {forest : Forest} (decoded : unit.forest enter = .ok forest) : forest.Decided enter := by
  unfold CompilationUnit.forest at decoded
  obtain ⟨item, _, decoded⟩ := bind_eq_ok.1 decoded
  cases item with
  | null next => cases decoded
  | entry root =>
    dsimp only at decoded
    split at decoded
    next =>
      cases decoded
      trivial
    next =>
      split at decoded
      next =>
        cases decoded
        trivial
      next start _ =>
        cases decoded
        exact unit.forestFrom_decided enter _ start

end Symbolizer.Dwarf

namespace Symbolizer.ScopeSource

open Dwarf (Entry Forest Place)
open Dwarf.Place (Encloses InPostOrder)

variable {source : ScopeSource} {forest : Forest}

/-- A scope comes from the entry at a place, entered for the address it is around. -/
def StandsAt (source : ScopeSource) (forest : Forest) (place : Place) (scope : Scope) : Prop :=
  ∃ entry, forest.entryAt? place = some (entry, true) ∧ isScope entry = true ∧
    source.scopeOf entry (isSubprogram entry) = .ok scope

theorem StandsAt.below {children next : Forest} {entry : Entry} {entered : Bool} {place : Place}
    {scope : Scope} (stands : source.StandsAt children place scope) :
    source.StandsAt (.node entry entered children next) (0 :: place) scope := by
  obtain ⟨found, here, read⟩ := stands
  cases place with
  | nil => simp [Forest.entryAt?] at here
  | cons index place => exact ⟨found, here, read⟩

theorem StandsAt.beside {children next : Forest} {entry : Entry} {entered : Bool} {place : Place}
    {scope : Scope} (stands : source.StandsAt next place scope) :
    source.StandsAt (.node entry entered children next) place.beside scope := by
  obtain ⟨found, here, read⟩ := stands
  cases place with
  | nil => simp [Forest.entryAt?] at here
  | cons index place => exact ⟨found, here, read⟩

theorem stand_below {children : Forest} {places : List Place} {scopes : List Scope} (entry : Entry)
    (entered : Bool) (next : Forest) (stand : List.Forall₂ (source.StandsAt children) places scopes) :
    List.Forall₂ (source.StandsAt (.node entry entered children next)) (places.map (0 :: ·)) scopes :=
  List.forall₂_map_left_iff.2 (stand.imp fun _ _ => StandsAt.below)

theorem stand_beside {next : Forest} {places : List Place} {scopes : List Scope} (entry : Entry)
    (entered : Bool) (children : Forest) (stand : List.Forall₂ (source.StandsAt next) places scopes) :
    List.Forall₂ (source.StandsAt (.node entry entered children next)) (places.map Place.beside) scopes :=
  List.forall₂_map_left_iff.2 (stand.imp fun _ _ => StandsAt.beside)

/-- A walk lists its scopes from those places, in that order. -/
theorem scopesOf_places {scopes : List Scope} {ended : Bool}
    (walked : source.scopesOf forest = .ok (scopes, ended)) :
    List.Forall₂ (source.StandsAt forest) forest.scopePlaces scopes := by
  induction forest generalizing scopes ended with
  | done =>
    cases walked
    exact .nil
  | failed fault => cases walked
  | node entry entered children next inner outer =>
    rw [Forest.scopePlaces]
    cases walkStep_of_ok walked with
    | endedBelow below =>
      rw [← ended_eq_holds below]
      simpa using stand_below entry entered next (inner below)
    | passed below none behind =>
      rw [← ended_eq_holds below, none]
      exact List.rel_append (stand_below entry entered next (inner below))
        (stand_beside entry entered children (outer behind))
    | @ends _ scope below here subprogram read =>
      subst here
      have listed := isScope_of_isSubprogram subprogram
      have own : source.StandsAt (.node entry true children next) [0] scope :=
        ⟨entry, rfl, listed, by rw [subprogram, read]⟩
      rw [← ended_eq_holds below, listed, subprogram]
      exact List.rel_append (stand_below entry true next (inner below)) (.cons own .nil)
    | @inlined _ _ scope _ below here listed call read behind =>
      subst here
      have own : source.StandsAt (.node entry true children next) [0] scope :=
        ⟨entry, rfl, listed, by rw [call, read]⟩
      rw [← ended_eq_holds below, listed, call]
      exact List.rel_append (stand_below entry true next (inner below))
        (.cons own (stand_beside entry true children (outer behind)))

theorem expandChain_pairs {leaf : Option SourceLocation} {scopes : List Scope} {index : Nat}
    {frame : LogicalFrame} (found : (expandChain leaf scopes)[index + 1]? = some frame) :
    ∃ scope, scopes[index]? = some scope ∧ frame.location = scope.callSite ∧
      frame.function = scopes[index + 1]?.bind Scope.function := by
  induction scopes generalizing leaf index with
  | nil => simp [expandChain] at found
  | cons scope outer ih =>
    rw [expandChain] at found
    split at found
    next => simp at found
    next =>
      rw [List.getElem?_cons_succ] at found
      cases index with
      | succ index => exact ih found
      | zero =>
        refine ⟨scope, rfl, ?_⟩
        cases outer with
        | nil =>
          cases found
          exact ⟨rfl, rfl⟩
        | cons next outer =>
          have first : frame = ⟨scope.callSite, next.function⟩ := by
            rw [expandChain] at found
            split at found <;> exact (Option.some.inj found).symm
          rw [first]
          exact ⟨rfl, rfl⟩

/-- The scopes of a chain stand in the tree in post-order, and each lies around the one in front of it
exactly when no list of siblings, as far as the walk goes, has two members with a scope. -/
theorem resolve_scopes_nested_iff {source : ScopeSource} {target : UInt64}
    {leaf : Option SourceLocation} {frames : List LogicalFrame}
    (resolved : source.resolve target leaf = .ok frames) :
    ∃ forest scopes,
      source.unit.forest (source.enters target) = .ok forest ∧
      (∀ place entry entered, forest.entryAt? place = some (entry, entered) →
        source.enters target entry = .ok entered) ∧
      frames = expandChain leaf scopes ∧
      (∀ index frame, frames[index + 1]? = some frame →
        ∃ scope, scopes[index]? = some scope ∧ frame.location = scope.callSite ∧
          frame.function = scopes[index + 1]?.bind Scope.function) ∧
      List.Forall₂ (source.StandsAt forest) forest.scopePlaces scopes ∧
      forest.scopePlaces.Pairwise InPostOrder ∧
      (forest.scopePlaces.IsChain (fun inner outer => Encloses outer inner) ↔ forest.SingleFile) := by
  unfold resolve at resolved
  obtain ⟨forest, read, resolved⟩ := bind_eq_ok.1 resolved
  obtain ⟨⟨scopes, ended⟩, walked, resolved⟩ := bind_eq_ok.1 resolved
  cases resolved
  have decoded := mapDwarf_eq_ok.1 read
  have decided := Dwarf.CompilationUnit.forest_decided decoded
  exact ⟨forest, scopes, decoded, fun _ _ _ => decided.at, rfl, fun _ _ => expandChain_pairs,
    scopesOf_places walked, forest.scopePlaces_inPostOrder, forest.scopePlaces_isChain_iff⟩

def nest : ScopeSource :=
  sourceOf [1,
    2, 0x6b, 0, 0x60, 0x10, 0x13, 0,
    2, 0x66, 0, 0x10, 0x40, 0x2a,
    4, 3, 0x67, 0, 0x20, 0x10, 1, 7, 0,
    3, 0x68, 0, 0x30, 8, 1, 9, 0, 0]

def nestForest : Forest :=
  .node (entryIn nest 12) false .done
    (.node (entryIn nest 19) true
      (.node (entryIn nest 25) true (.node (entryIn nest 26) true .done .done)
        (.node (entryIn nest 34) false .done .done)) .done)

theorem resolve_scopes_nested_iff_nest :
    nest.resolve 0x25 none = .ok [⟨none, some ⟨"g", none, .c⟩⟩, ⟨some ⟨"a.c", 7, 0⟩, some ⟨"f", none, .c⟩⟩] ∧
      nest.unit.forest (nest.enters 0x25) = .ok nestForest ∧
      nestForest.scopePlaces = [[1, 0, 0], [1]] ∧ Encloses [1] [1, 0, 0] := by
  have resolved : nest.resolve 0x25 none =
      .ok [⟨none, some ⟨"g", none, .c⟩⟩, ⟨some ⟨"a.c", 7, 0⟩, some ⟨"f", none, .c⟩⟩] := by cbv
  have decoded : nest.unit.forest (nest.enters 0x25) = .ok nestForest := by cbv
  have places : nestForest.scopePlaces = [[1, 0, 0], [1]] := by cbv
  have single : nestForest.SingleFile := by decide
  obtain ⟨forest, _, same, _, _, _, _, _, chain⟩ := resolve_scopes_nested_iff resolved
  rw [decoded] at same
  cases same
  have nested := chain.2 single
  rw [places, List.isChain_pair] at nested
  exact ⟨resolved, decoded, places, nested⟩

def overlapping : ScopeSource :=
  sourceOf [1,
    2, 0x66, 0, 0x10, 0x40, 0x21,
    3, 0x67, 0, 0x20, 0x10, 1, 7,
    3, 0x68, 0, 0x20, 0x10, 1, 9, 0, 0]

def overlappingForest : Forest :=
  .node (entryIn overlapping 12) true
    (.node (entryIn overlapping 18) true .done (.node (entryIn overlapping 25) true .done .done)) .done

/-- Both calls are listed, and the second gets the call site of the first. -/
theorem resolve_scopes_not_nested_overlapping :
    overlapping.unit.forest (overlapping.enters 0x25) = .ok overlappingForest ∧
      overlappingForest.scopePlaces = [[0, 0], [0, 1], [0]] ∧
      ¬ overlappingForest.scopePlaces.IsChain (fun inner outer => Encloses outer inner) ∧
      overlapping.resolve 0x25 (some ⟨"a.c", 3, 1⟩) =
        .ok [⟨some ⟨"a.c", 3, 1⟩, some ⟨"g", none, .c⟩⟩, ⟨some ⟨"a.c", 7, 0⟩, some ⟨"h", none, .c⟩⟩,
          ⟨some ⟨"a.c", 9, 0⟩, some ⟨"f", none, .c⟩⟩] := by
  have places : overlappingForest.scopePlaces = [[0, 0], [0, 1], [0]] := by cbv
  refine ⟨by cbv, places, ?_, by cbv⟩
  rw [places]
  decide

end Symbolizer.ScopeSource
