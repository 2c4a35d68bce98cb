import Symbolizer.Proofs.Inline.Nesting

/-!
Faults on the way to the scopes of an address. The walk breaks at an entry that cannot be read and at a
scope whose name or call site cannot be read, unless a subprogram has ended it before it gets there. A
walk that breaks leaves nothing of what it has collected: it gives its scopes exactly when it does not
break anywhere.
-/

namespace Symbolizer.ScopeSource

open Dwarf (Entry Forest)

inductive Breaks (source : ScopeSource) : Forest → Prop where
  | unread (fault : Fault) : Breaks source (.failed fault)
  | inside {entry : Entry} {entered : Bool} {children next : Forest} (breaks : Breaks source children) :
      Breaks source (.node entry entered children next)
  | scope {entry : Entry} {children next : Forest} {fault : Fault}
      (goes_on : children.holds isSubprogram = false) (listed : isScope entry = true)
      (fails : source.scopeOf entry (isSubprogram entry) = .error fault) :
      Breaks source (.node entry true children next)
  | behind {entry : Entry} {entered : Bool} {children next : Forest}
      (goes_on : children.holds isSubprogram = false) (passes : (entered && isSubprogram entry) = false)
      (breaks : Breaks source next) : Breaks source (.node entry entered children next)

/-- The way to the scopes around an address comes to a fault, at the root entry or below it. -/
inductive WalkFails (source : ScopeSource) (target : UInt64) : Prop where
  | root {fault : Dwarf.Fault} (unread : source.unit.forest (source.enters target) = .error fault)
  | entries {forest : Forest} (read : source.unit.forest (source.enters target) = .ok forest)
      (breaks : source.Breaks forest)

variable {source : ScopeSource} {forest children next : Forest} {entry : Entry} {entered : Bool}

theorem error_of_breaks (breaks : source.Breaks forest) : ∃ fault, source.scopesOf forest = .error fault := by
  induction breaks with
  | unread fault => exact ⟨_, rfl⟩
  | inside _ ih =>
    obtain ⟨fault, fails⟩ := ih
    exact ⟨fault, by rw [scopesOf_node, fails]; rfl⟩
  | @scope entry children next fault goes_on listed fails =>
    rw [scopesOf_node]
    cases walked : source.scopesOf children with
    | error earlier => exact ⟨earlier, rfl⟩
    | ok pair =>
      have over_below := (ended_eq_holds walked).trans goes_on
      exact ⟨fault, by simp [bind, Except.bind, over_below, listed, fails]⟩
  | @behind entry entered children next goes_on passes _ ih =>
    obtain ⟨fault, fails⟩ := ih
    rw [scopesOf_node]
    cases walked : source.scopesOf children with
    | error earlier => exact ⟨earlier, rfl⟩
    | ok pair =>
      have over_below := (ended_eq_holds walked).trans goes_on
      cases here : entered && isScope entry with
      | false => exact ⟨fault, by simp [bind, Except.bind, over_below, fails]⟩
      | true =>
        obtain ⟨rfl, listed⟩ := Bool.and_eq_true_iff.1 here
        have call : isSubprogram entry = false := passes
        cases read : source.scopeOf entry (isSubprogram entry) with
        | error own => exact ⟨own, by simp [bind, Except.bind, over_below]⟩
        | ok scope => exact ⟨fault, by simp [bind, Except.bind, over_below, call, fails]⟩

theorem breaks_of_error {fault : Fault} (fails : source.scopesOf forest = .error fault) :
    source.Breaks forest := by
  induction forest generalizing fault with
  | done => cases fails
  | failed cause => exact .unread cause
  | node entry entered children next inner outer =>
    rw [scopesOf_node] at fails
    cases walked : source.scopesOf children with
    | error earlier => exact .inside (inner walked)
    | ok pair =>
      obtain ⟨scopes, over_below⟩ := pair
      have ended := ended_eq_holds walked
      cases over_below with
      | true =>
        rw [walked] at fails
        cases fails
      | false =>
        cases here : entered && isScope entry with
        | false =>
          cases later : source.scopesOf next with
          | error cause => exact .behind ended.symm (not_isSubprogram_of_not_isScope here) (outer later)
          | ok pair =>
            rw [walked, here, later] at fails
            cases fails
        | true =>
          obtain ⟨rfl, listed⟩ := Bool.and_eq_true_iff.1 here
          cases read : source.scopeOf entry (isSubprogram entry) with
          | error own => exact .scope ended.symm listed read
          | ok scope =>
            cases subprogram : isSubprogram entry with
            | true =>
              rw [walked, here, read, subprogram] at fails
              cases fails
            | false =>
              cases later : source.scopesOf next with
              | error cause => exact .behind ended.symm subprogram (outer later)
              | ok pair =>
                rw [walked, here, read, subprogram, later] at fails
                cases fails

theorem scopesOf_error_iff : (∃ fault, source.scopesOf forest = .error fault) ↔ source.Breaks forest :=
  ⟨fun ⟨_, fails⟩ => breaks_of_error fails, error_of_breaks⟩

theorem chain_of_resolve {target : UInt64} {leaf : Option SourceLocation} {frames : List LogicalFrame}
    (resolved : source.resolve target leaf = .ok frames) :
    ∃ forest scopes ended, source.unit.forest (source.enters target) = .ok forest ∧
      source.scopesOf forest = .ok (scopes, ended) ∧ frames = expandChain leaf scopes := by
  obtain ⟨forest, read, resolved⟩ := bind_eq_ok.1 resolved
  obtain ⟨⟨scopes, ended⟩, walked, resolved⟩ := bind_eq_ok.1 resolved
  cases resolved
  exact ⟨forest, scopes, ended, mapDwarf_eq_ok.1 read, walked, rfl⟩

theorem resolve_error_iff {target : UInt64} {leaf : Option SourceLocation} :
    (∃ fault, source.resolve target leaf = .error fault) ↔ source.WalkFails target := by
  unfold resolve
  cases read : source.unit.forest (source.enters target) with
  | error fault =>
    exact ⟨fun _ => .root read, fun _ => ⟨_, rfl⟩⟩
  | ok forest =>
    have fails_iff : source.WalkFails target ↔ source.Breaks forest := by
      constructor
      · rintro (unread | ⟨again, breaks⟩)
        · rw [read] at unread
          cases unread
        · rw [read] at again
          cases again
          exact breaks
      · exact .entries read
    rw [fails_iff, ← scopesOf_error_iff]
    cases walked : source.scopesOf forest <;> simp [mapDwarf, bind, Except.bind, walked, pure, Except.pure]

end Symbolizer.ScopeSource
