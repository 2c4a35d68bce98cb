import Mathlib
import Symbolizer.UnitIndex

/-!
The units of an index that may hold an address, in the order of their slots, and the lowest address that any
of them may hold.
-/

namespace Symbolizer

theorem UnitEntry.contains_iff (entry : UnitEntry) (address : UInt64) :
    entry.contains address = true ↔
      ∃ interval, entry.range = some interval ∧ interval.low ≤ address ∧ address < interval.high := by
  unfold UnitEntry.contains
  cases entry.range <;> simp [Interval.contains]

namespace UnitIndex

variable {index : UnitIndex} {address low : UInt64} {slot : Nat} {entry : UnitEntry} {lows : List UInt64}

theorem mem_candidates :
    (slot, entry) ∈ index.candidates address ↔
      index.entries[slot]? = some entry ∧ entry.contains address = true := by
  simp only [candidates, List.mem_map, List.mem_filter, List.mem_zipIdx_iff_getElem?]
  constructor
  · rintro ⟨⟨held, place⟩, ⟨found, contains⟩, same⟩
    cases same
    exact ⟨found, contains⟩
  · rintro ⟨found, contains⟩
    exact ⟨(entry, slot), ⟨found, contains⟩, rfl⟩

theorem candidates_pairwise (index : UnitIndex) (address : UInt64) :
    (index.candidates address).Pairwise fun one other => one.1 < other.1 := by
  have ordered : (index.entries.zipIdx.map Prod.snd).Pairwise (· < ·) := by
    rw [List.zipIdx_map_snd]
    exact List.pairwise_lt_range'
  rw [candidates, List.pairwise_map]
  exact (List.pairwise_map.1 ordered).filter _

theorem leastOf_eq_none_iff : leastOf lows = none ↔ lows = [] := by
  cases lows with
  | nil => exact ⟨fun _ => rfl, fun _ => rfl⟩
  | cons first rest =>
    rw [leastOf]
    split <;> exact ⟨nofun, nofun⟩

theorem least_of_leastOf (found : leastOf lows = some low) : low ∈ lows ∧ ∀ other ∈ lows, low ≤ other := by
  induction lows generalizing low with
  | nil => cases found
  | cons first rest ih =>
    rw [leastOf] at found
    split at found
    next none =>
      cases found
      rw [leastOf_eq_none_iff.1 none]
      simp
    next least some =>
      obtain ⟨member, lowest⟩ := ih some
      cases found
      split
      next below =>
        refine ⟨List.mem_cons_self, List.forall_mem_cons.2 ⟨UInt64.le_refl _, fun other inside => ?_⟩⟩
        exact UInt64.le_trans below (lowest other inside)
      next above =>
        have reached : least ≤ first := UInt64.le_of_lt (UInt64.not_le.1 above)
        exact ⟨List.mem_cons_of_mem _ member, List.forall_mem_cons.2 ⟨reached, lowest⟩⟩

theorem leastOf_eq_some_iff : leastOf lows = some low ↔ low ∈ lows ∧ ∀ other ∈ lows, low ≤ other := by
  refine ⟨least_of_leastOf, fun ⟨member, lowest⟩ => ?_⟩
  cases found : leastOf lows with
  | none =>
    rw [leastOf_eq_none_iff.1 found] at member
    cases member
  | some least =>
    obtain ⟨member_too, lowest_too⟩ := least_of_leastOf found
    rw [UInt64.le_antisymm (lowest_too low member) (lowest least member_too)]

theorem mem_lows {entries : List UnitEntry} :
    low ∈ entries.filterMap (fun entry => entry.range.map Interval.low) ↔
      ∃ entry ∈ entries, ∃ interval, entry.range = some interval ∧ interval.low = low := by
  simp only [List.mem_filterMap, Option.map_eq_some_iff]

theorem minLow?_eq_some_iff :
    index.minLow? = some low ↔
      (∃ entry ∈ index.entries, ∃ interval, entry.range = some interval ∧ interval.low = low) ∧
      ∀ entry ∈ index.entries, ∀ interval, entry.range = some interval → low ≤ interval.low := by
  rw [minLow?, leastOf_eq_some_iff, mem_lows]
  refine and_congr_right fun _ => ⟨fun lowest entry member interval range => ?_, fun lowest other member => ?_⟩
  · exact lowest _ (mem_lows.2 ⟨entry, member, interval, range, rfl⟩)
  · obtain ⟨entry, inside, interval, range, rfl⟩ := mem_lows.1 member
    exact lowest entry inside interval range

theorem minLow?_eq_none_iff : index.minLow? = none ↔ ∀ entry ∈ index.entries, entry.range = none := by
  rw [minLow?, leastOf_eq_none_iff, List.filterMap_eq_nil_iff]
  simp only [Option.map_eq_none_iff]

end UnitIndex

end Symbolizer
