import Symbolizer.Proofs.Dwarf.Headers
import Symbolizer.UnitIndex

/-!
Which unit of the index an offset of the section belongs to. Units stand one behind the other, so of the
units that start at or before an offset the last one is the only one that can hold it, and units that start
behind the offset have no say.
-/

namespace Symbolizer.UnitIndex

open Dwarf (UnitHeader Sections)

/-- The better of the unit found so far and the next one. -/
def later (offset : Nat) (found : Option UnitEntry) (entry : UnitEntry) : Option UnitEntry :=
  if entry.offset ≤ offset then
    match found with
    | some best => if best.offset ≤ entry.offset then some entry else found
    | none => some entry
  else found

variable {entries front back : List UnitEntry} {entry owner : UnitEntry} {offset : Nat}
  {found : Option UnitEntry}

theorem unitAtOrBefore?_eq (entries : List UnitEntry) (offset : Nat) :
    unitAtOrBefore? ⟨entries⟩ offset = entries.foldl (later offset) none := rfl

theorem later_of_beyond (beyond : offset < entry.offset) : later offset found entry = found :=
  if_neg (Nat.not_le.2 beyond)

theorem later_of_reached (reached : entry.offset ≤ offset)
    (sorted : ∀ best ∈ found, best.offset ≤ entry.offset) : later offset found entry = some entry := by
  unfold later
  rw [if_pos reached]
  cases found with
  | none => rfl
  | some best => exact if_pos (sorted best rfl)

theorem foldl_later_beyond (beyond : ∀ entry ∈ back, offset < entry.offset) :
    back.foldl (later offset) found = found := by
  induction back with
  | nil => rfl
  | cons entry rest ih =>
    obtain ⟨first, rest_beyond⟩ := List.forall_mem_cons.1 beyond
    rw [List.foldl_cons, later_of_beyond first]
    exact ih rest_beyond

theorem foldl_later_mem (chosen : entries.foldl (later offset) found = some owner) :
    owner ∈ entries ∨ found = some owner := by
  induction entries generalizing found with
  | nil => exact .inr chosen
  | cons entry rest ih =>
    rcases ih chosen with inside | step
    · exact .inl (List.mem_cons_of_mem _ inside)
    · unfold later at step
      split at step
      next =>
        split at step
        next =>
          split at step
          next => exact .inl (Option.some.inj step ▸ List.mem_cons_self)
          next => exact .inr step
        next => exact .inl (Option.some.inj step ▸ List.mem_cons_self)
      next => exact .inr step

/-- Units that start behind the offset may come or go. -/
theorem unitAtOrBefore?_append (beyond : ∀ entry ∈ back, offset < entry.offset) :
    unitAtOrBefore? ⟨front ++ back⟩ offset = unitAtOrBefore? ⟨front⟩ offset := by
  rw [unitAtOrBefore?_eq, unitAtOrBefore?_eq, List.foldl_append, foldl_later_beyond beyond]

theorem mem_of_unitAtOrBefore? {index : UnitIndex} (chosen : index.unitAtOrBefore? offset = some owner) :
    owner ∈ index.entries := by
  rcases foldl_later_mem chosen with inside | none
  · exact inside
  · cases none

theorem unitAtOrBefore?_eq_some (sorted : ∀ other ∈ front, other.offset ≤ entry.offset)
    (reached : entry.offset ≤ offset) (beyond : ∀ other ∈ back, offset < other.offset) :
    unitAtOrBefore? ⟨front ++ entry :: back⟩ offset = some entry := by
  rw [unitAtOrBefore?_eq, List.foldl_append, List.foldl_cons, foldl_later_beyond beyond]
  apply later_of_reached reached
  intro best chosen
  rcases foldl_later_mem chosen with inside | none
  · exact sorted best inside
  · cases none

/-! The index of a section. -/

variable {sections : Sections} {header other : UnitHeader}

def entryOf (sections : Sections) (header : UnitHeader) : UnitEntry :=
  ⟨header.offset, rangeOf? sections header⟩

theorem entries_build (sections : Sections) :
    (build sections).entries = (UnitHeader.all sections.info).map (entryOf sections) := rfl

theorem holds_iff : (header.local? offset).isSome ↔
    header.offset + header.headerSize ≤ offset ∧ offset < header.finish := by
  unfold UnitHeader.local? UnitHeader.holds UnitHeader.finish
  split
  next inside =>
    simp only [Bool.and_eq_true, decide_eq_true_eq] at inside
    simp only [Option.isSome_some, true_iff]
    omega
  next outside =>
    simp only [Bool.and_eq_true, decide_eq_true_eq, not_and] at outside
    simp only [Option.isSome_none, Bool.false_eq_true, false_iff, not_and]
    omega

theorem unitAtOrBefore?_of_holds (member : header ∈ UnitHeader.all sections.info)
    (holds : (header.local? offset).isSome) :
    (build sections).unitAtOrBefore? offset = some (entryOf sections header) := by
  obtain ⟨front, back, split⟩ := List.append_of_mem member
  have apart := UnitHeader.all_apart sections.info
  rw [split, List.pairwise_append, List.pairwise_cons] at apart
  obtain ⟨_, ⟨behind, _⟩, across⟩ := apart
  have within := holds_iff.1 holds
  have index : build sections = ⟨front.map (entryOf sections) ++ entryOf sections header ::
      back.map (entryOf sections)⟩ := by
    rw [← List.map_cons, ← List.map_append, ← split]
    rfl
  rw [index]
  refine unitAtOrBefore?_eq_some ?_ ?_ ?_
  · intro other found
    obtain ⟨before, inside, rfl⟩ := List.mem_map.1 found
    have ends := across before inside header List.mem_cons_self
    have starts := UnitHeader.offset_lt_finish (split ▸ List.mem_append_left _ inside)
    simp only [entryOf]
    omega
  · simp only [entryOf]
    omega
  · intro other found
    obtain ⟨after, inside, rfl⟩ := List.mem_map.1 found
    have starts := behind after inside
    simp only [entryOf]
    omega

theorem eq_of_holds (member : header ∈ UnitHeader.all sections.info)
    (member_too : other ∈ UnitHeader.all sections.info) (holds : (header.local? offset).isSome)
    (holds_too : (other.local? offset).isSome) : header = other := by
  have chosen := unitAtOrBefore?_of_holds member holds
  rw [unitAtOrBefore?_of_holds member_too holds_too] at chosen
  have starts : other.offset = header.offset := congrArg UnitEntry.offset (Option.some.inj chosen)
  have read := UnitHeader.atOffset_of_mem_all member
  rw [← starts, UnitHeader.atOffset_of_mem_all member_too] at read
  exact (Except.ok.inj read).symm

end Symbolizer.UnitIndex
