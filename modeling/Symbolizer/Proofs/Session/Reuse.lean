import Mathlib
import Symbolizer.Session

/-!
Units that a session has read before change none of its answers. A filled cell holds what its unit
reads as, a lookup fills cells in no other way, and so what is served for an address is the lookup
with every unit read afresh, whatever was served before.
-/

namespace Symbolizer.Session

/-- Every unit has a cell, and a filled one holds what the unit reads as. -/
structure Coherent (session : Session) : Prop where
  covered : session.cells.length = session.index.entries.length
  kept : ∀ slot data, session.cells[slot]? = some (.read data) → data = session.unitIn? slot

theorem coherent_ofSections (sections : Dwarf.Sections) (naming : Naming) :
    (ofSections sections naming).Coherent := by
  refine ⟨by simp [ofSections], ?_⟩
  intro slot data held
  simp only [ofSections, List.getElem?_map, Option.map_eq_some_iff] at held
  obtain ⟨entry, _, wrong⟩ := held
  cases wrong

theorem coherent_of_load {object : ObjectFile} {naming : Naming} {session : Session}
    (loaded : load object naming = .ok session) : session.Coherent := by
  unfold load at loaded
  split at loaded
  · cases loaded
    exact coherent_ofSections _ _
  · cases loaded

theorem unitAt_source (session : Session) (slot : Nat) :
    (session.unitAt slot).2.toNameSource = session.toNameSource := by
  unfold unitAt
  split <;> rfl

theorem unitAt_unit {session : Session} (coherent : session.Coherent) (slot : Nat) :
    (session.unitAt slot).1 = session.unitIn? slot := by
  unfold unitAt
  split
  next outside =>
    have beyond : session.index.entries[slot]? = none := by
      rw [List.getElem?_eq_none_iff] at outside ⊢
      exact coherent.covered ▸ outside
    simp only [NameSource.unitIn?, beyond, Option.bind_eq_bind, Option.bind_none]
  next data held => exact coherent.kept slot data held
  next => rfl

theorem unitAt_coherent {session : Session} (coherent : session.Coherent) (slot : Nat) :
    (session.unitAt slot).2.Coherent := by
  unfold unitAt
  split
  next => exact coherent
  next => exact coherent
  next held =>
    refine ⟨by simpa using coherent.covered, ?_⟩
    intro other data filled
    have inside : slot < session.cells.length := (List.getElem?_eq_some_iff.1 held).1
    by_cases same : slot = other
    · subst other
      rw [List.getElem?_set_self inside] at filled
      cases filled
      rfl
    · rw [List.getElem?_set_ne same] at filled
      exact coherent.kept other data filled

theorem search_session {session : Session} (coherent : session.Coherent) (address : UInt64)
    (slots : List Nat) :
    (search address session slots).2.Coherent ∧
      (search address session slots).2.toNameSource = session.toNameSource := by
  induction slots generalizing session with
  | nil => exact ⟨coherent, rfl⟩
  | cons slot slots ih =>
    have next := unitAt_coherent coherent slot
    have source := unitAt_source session slot
    simp only [search]
    split
    · exact ⟨next, source⟩
    · exact ⟨(ih next).1, (ih next).2.trans source⟩

theorem search_lookup {session : Session} (coherent : session.Coherent) (address : UInt64)
    (slots : List Nat) :
    (search address session slots).1 =
      match slots.findSome? fun slot => session.framesIn? address (session.unitIn? slot) with
      | some frames => .found frames
      | none => .notFound := by
  induction slots generalizing session with
  | nil => rfl
  | cons slot slots ih =>
    have source := unitAt_source session slot
    simp only [search, List.findSome?_cons, source, unitAt_unit coherent slot]
    cases answer : session.framesIn? address (session.unitIn? slot) with
    | some frames => rfl
    | none =>
      have rest := ih (unitAt_coherent coherent slot)
      rw [source] at rest
      exact rest

/-- Units read for earlier addresses do not show in what is served. -/
theorem serve_lookup {session : Session} (coherent : session.Coherent) (address : UInt64) :
    (session.serve address).1 = session.lookup address :=
  search_lookup coherent address _

theorem serve_coherent {session : Session} (coherent : session.Coherent) (address : UInt64) :
    (session.serve address).2.Coherent :=
  (search_session coherent address _).1

theorem serve_source {session : Session} (coherent : session.Coherent) (address : UInt64) :
    (session.serve address).2.toNameSource = session.toNameSource :=
  (search_session coherent address _).2

end Symbolizer.Session
