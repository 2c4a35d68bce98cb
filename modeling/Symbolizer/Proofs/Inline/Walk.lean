import Symbolizer.Inline.Scopes
import Symbolizer.Proofs.Dwarf.Tree

/-!
The walk to the scopes around an address, step by step. It goes through what is below an entry, then comes
to the entry itself and then to its siblings, until it has listed a subprogram. What stands behind that
subprogram is never looked at.
-/

namespace Symbolizer.ScopeSource

open Dwarf (Entry Forest)

def isSubprogram (entry : Entry) : Bool :=
  entry.tag == Dwarf.Tag.subprogram

def isScope (entry : Entry) : Bool :=
  isSubprogram entry || entry.tag == Dwarf.Tag.inlinedSubroutine

variable {source : ScopeSource} {entry : Entry} {entered ended : Bool} {forest children next : Forest}
  {scopes : List Scope}

theorem kind_of_scope (entry : Entry) :
    ScopeKind.of entry =
      if isSubprogram entry then .subprogram else if isScope entry then .inlined else .transparent := by
  unfold ScopeKind.of isScope isSubprogram
  by_cases subprogram : entry.tag = Dwarf.Tag.subprogram
  · simp [subprogram]
  · simp [subprogram]

theorem isScope_of_isSubprogram (subprogram : isSubprogram entry = true) : isScope entry = true := by
  rw [isScope, subprogram, Bool.true_or]

theorem not_isSubprogram_of_not_isScope (none : (entered && isScope entry) = false) :
    (entered && isSubprogram entry) = false := by
  by_contra ended
  obtain ⟨inside, subprogram⟩ := Bool.and_eq_true_iff.1 (Bool.eq_true_of_not_eq_false ended)
  rw [inside, isScope_of_isSubprogram subprogram] at none
  cases none

theorem scopesOf_node (source : ScopeSource) (entry : Entry) (entered : Bool) (children next : Forest) :
    source.scopesOf (.node entry entered children next) = (do
      let (inner, ended) ← source.scopesOf children
      if ended then return (inner, true)
      if entered && isScope entry then
        let scope ← source.scopeOf entry (isSubprogram entry)
        if isSubprogram entry then return (inner ++ [scope], true)
        let (outer, ended) ← source.scopesOf next
        return (inner ++ scope :: outer, ended)
      let (outer, ended) ← source.scopesOf next
      return (inner ++ outer, ended)) := by
  rw [scopesOf, kind_of_scope]
  cases scope : isScope entry with
  | false =>
    have plain : isSubprogram entry = false := (Bool.or_eq_false_iff.1 scope).1
    simp [plain]
  | true => cases isSubprogram entry <;> cases entered <;> simp

/-- One step of the walk: it has ended below the entry, looks through it, ends with it, or lists it and
goes on. -/
inductive WalkStep (source : ScopeSource) (entry : Entry) (entered : Bool) (children next : Forest) :
    List Scope → Bool → Prop
  | endedBelow {inner : List Scope} (below : source.scopesOf children = .ok (inner, true)) :
      WalkStep source entry entered children next inner true
  | passed {inner outer : List Scope} {ended : Bool}
      (below : source.scopesOf children = .ok (inner, false))
      (none : (entered && isScope entry) = false)
      (behind : source.scopesOf next = .ok (outer, ended)) :
      WalkStep source entry entered children next (inner ++ outer) ended
  | ends {inner : List Scope} {scope : Scope} (below : source.scopesOf children = .ok (inner, false))
      (here : entered = true) (subprogram : isSubprogram entry = true)
      (read : source.scopeOf entry true = .ok scope) :
      WalkStep source entry entered children next (inner ++ [scope]) true
  | inlined {inner outer : List Scope} {scope : Scope} {ended : Bool}
      (below : source.scopesOf children = .ok (inner, false))
      (here : entered = true) (listed : isScope entry = true) (call : isSubprogram entry = false)
      (read : source.scopeOf entry false = .ok scope)
      (behind : source.scopesOf next = .ok (outer, ended)) :
      WalkStep source entry entered children next (inner ++ scope :: outer) ended

theorem walkStep_of_ok (walked : source.scopesOf (.node entry entered children next) = .ok (scopes, ended)) :
    source.WalkStep entry entered children next scopes ended := by
  rw [scopesOf_node] at walked
  obtain ⟨⟨inner, over_below⟩, below, walked⟩ := bind_eq_ok.1 walked
  cases over_below with
  | true =>
    cases walked
    exact .endedBelow below
  | false =>
    cases here : entered && isScope entry with
    | false =>
      rw [here] at walked
      obtain ⟨⟨outer, over_behind⟩, behind, walked⟩ := bind_eq_ok.1 walked
      cases walked
      exact .passed below here behind
    | true =>
      rw [here] at walked
      obtain ⟨inside, listed⟩ := Bool.and_eq_true_iff.1 here
      obtain ⟨scope, read, walked⟩ := bind_eq_ok.1 walked
      cases subprogram : isSubprogram entry with
      | true =>
        rw [subprogram] at walked read
        cases walked
        exact .ends below inside subprogram read
      | false =>
        rw [subprogram] at walked read
        obtain ⟨⟨outer, over_behind⟩, behind, walked⟩ := bind_eq_ok.1 walked
        cases walked
        exact .inlined below inside listed subprogram read behind

theorem ended_eq_holds (walked : source.scopesOf forest = .ok (scopes, ended)) :
    ended = forest.holds isSubprogram := by
  induction forest generalizing scopes ended with
  | done =>
    cases walked
    rfl
  | failed fault => cases walked
  | node entry entered children next inner outer =>
    rw [Forest.holds]
    cases walkStep_of_ok walked with
    | endedBelow below => rw [← inner below]; rfl
    | passed below none behind =>
      rw [← inner below, not_isSubprogram_of_not_isScope none, ← outer behind]
      rfl
    | ends below here subprogram => rw [← inner below, here, subprogram]; rfl
    | inlined below here listed call read behind =>
      rw [← inner below, call, Bool.and_false, ← outer behind]
      rfl

/-- The scopes are the same when what stands behind the end of the walk is cut off. -/
theorem scopesOf_upTo (source : ScopeSource) (forest : Forest) :
    source.scopesOf (forest.upTo isSubprogram) = source.scopesOf forest := by
  induction forest with
  | done => rfl
  | failed fault => rfl
  | node entry entered children next inner outer =>
    rw [Forest.upTo, scopesOf_node, scopesOf_node, inner]
    cases walked : source.scopesOf children with
    | error fault => rfl
    | ok pair =>
      obtain ⟨scopes, ended⟩ := pair
      cases ended with
      | true => rfl
      | false =>
        have goes_on : children.holds isSubprogram = false := (ended_eq_holds walked).symm
        cases here : entered && isSubprogram entry with
        | true =>
          obtain ⟨rfl, subprogram⟩ := Bool.and_eq_true_iff.1 here
          simp only [bind, Except.bind, isScope_of_isSubprogram subprogram, subprogram, Bool.and_self,
            ↓reduceIte, Bool.false_eq_true]
        | false =>
          have later : (if (Forest.node entry entered children .done).holds isSubprogram then Forest.done
              else next.upTo isSubprogram) = next.upTo isSubprogram := by
            rw [Forest.holds_first_iff.2 ⟨goes_on, here⟩]
            rfl
          rw [later, outer]

end Symbolizer.ScopeSource
