import Symbolizer.Dwarf.Ranges

/-!
The index of units: where each starts, and the smallest interval that covers its code. A unit whose
ranges are unknown stays in the index and matches no address.
-/

namespace Symbolizer

structure Interval where
  low : UInt64
  high : UInt64
  deriving DecidableEq, Repr

def Interval.contains (interval : Interval) (address : UInt64) : Bool :=
  interval.low ≤ address && address < interval.high

structure UnitEntry where
  offset : Nat
  range : Option Interval
  deriving DecidableEq, Repr

def UnitEntry.contains (entry : UnitEntry) (address : UInt64) : Bool :=
  entry.range.any (·.contains address)

structure UnitIndex where
  entries : List UnitEntry
  deriving DecidableEq, Repr

namespace UnitIndex

/-- The smallest interval around ranges; empty and backward ones do not count. -/
def cover : List Dwarf.Range → Option (Nat × Nat)
  | [] => none
  | range :: rest =>
    if range.high ≤ range.low then cover rest
    else
      match cover rest with
      | none => some (range.low, range.high)
      | some (low, high) => some (min range.low low, max range.high high)

/-- One range that cannot be read leaves the whole unit without an interval. -/
def rangeOf? (sections : Dwarf.Sections) (header : Dwarf.UnitHeader) : Option Interval := do
  let unit ← (Dwarf.CompilationUnit.read sections header).toOption
  let list ← (unit.ranges sections).toOption
  guard list.fault.isNone
  let (low, high) ← cover list.ranges
  return ⟨UInt64.ofNat low, UInt64.ofNat high⟩

/-- Units in the order of their headers, up to the first header that cannot be read. -/
def build (sections : Dwarf.Sections) : UnitIndex :=
  ⟨(Dwarf.UnitHeader.all sections.info).map fun header =>
    ⟨header.offset, rangeOf? sections header⟩⟩

def size (index : UnitIndex) : Nat :=
  index.entries.length

def isEmpty (index : UnitIndex) : Bool :=
  index.entries.isEmpty

def leastOf : List UInt64 → Option UInt64
  | [] => none
  | a :: rest =>
    match leastOf rest with
    | none => some a
    | some b => some (if a ≤ b then a else b)

def minLow? (index : UnitIndex) : Option UInt64 :=
  leastOf (index.entries.filterMap fun entry => entry.range.map Interval.low)

def candidates (index : UnitIndex) (address : UInt64) : List (Nat × UnitEntry) :=
  (index.entries.zipIdx.filter fun (entry, _) => entry.contains address).map fun (entry, slot) =>
    (slot, entry)

/-- Of the units that start at or before an offset the one that starts last. -/
def unitAtOrBefore? (index : UnitIndex) (offset : Nat) : Option UnitEntry :=
  index.entries.foldl (fun found entry =>
    if entry.offset ≤ offset then
      match found with
      | some best => if best.offset ≤ entry.offset then some entry else found
      | none => some entry
    else found) none

end UnitIndex

end Symbolizer
