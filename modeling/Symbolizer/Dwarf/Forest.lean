import Symbolizer.Dwarf.CompilationUnit
import Symbolizer.Fault

/-!
The entries of a unit as a tree. The tree is decoded from left to right under a rule that says which
entries are entered: the children of an entry that is not entered are passed over, by its sibling
reference when that points forward into the unit, and entry by entry otherwise. A fault takes the
place of whatever it hides.
-/

namespace Symbolizer.Dwarf

/-- A list of siblings. An entry that is not entered keeps its place and loses its children. -/
inductive Forest where
  | done
  | failed (fault : Symbolizer.Fault)
  | node (entry : Entry) (entered : Bool) (children : Forest) (next : Forest)

def Forest.unread (cause : Fault) : Forest :=
  .failed (.dwarf "reading DIE" cause)

/-- The sibling reference of an entry, when it points forward and into the unit. -/
def Entry.sibling? (entry : Entry) (header : UnitHeader) : Option Cursor :=
  match entry.attribute? Name.sibling with
  | .ok (some (.unitRef offset)) =>
    if entry.offset < offset then header.cursorAt? offset else none
  | _ => none

namespace CompilationUnit

def item (unit : CompilationUnit) (cursor : Cursor) : Except Fault Entry.Item :=
  Entry.read unit.encoding unit.abbreviations cursor

/-- Passes over the rest of `depth` nested lists of siblings; nothing is left when the unit ends. -/
def passSiblings (unit : CompilationUnit) : Nat → Nat → Cursor → Except Fault (Option Cursor)
  | _, 0, cursor => .ok (some cursor)
  | 0, _, _ => .ok none
  | fuel + 1, depth + 1, cursor => do
    if cursor.rest.isEmpty then return none
    match ← unit.item cursor with
    | .null next => unit.passSiblings fuel depth next
    | .entry entry =>
      if !entry.hasChildren then unit.passSiblings fuel (depth + 1) (← entry.stop)
      else
        match entry.sibling? unit.header with
        | some next => unit.passSiblings fuel (depth + 1) next
        | none => unit.passSiblings fuel (depth + 2) (← entry.stop)

def behind (unit : CompilationUnit) (fuel : Nat) (entry : Entry) : Except Fault (Option Cursor) := do
  if !entry.hasChildren then return some (← entry.stop)
  match entry.sibling? unit.header with
  | some next => return some next
  | none => unit.passSiblings fuel 1 (← entry.stop)

/-- The siblings from a cursor on, and the place behind them unless the unit ends or a fault hides
it. `fuel` exceeds the number of bytes left. -/
def forestFrom (unit : CompilationUnit) (enter : Entry → Except Symbolizer.Fault Bool) :
    Nat → Cursor → Forest × Option Cursor
  | 0, _ => (.done, none)
  | fuel + 1, cursor =>
    if cursor.rest.isEmpty then (.done, none)
    else
      match unit.item cursor with
      | .error cause => (.unread cause, none)
      | .ok (.null next) => (.done, some next)
      | .ok (.entry entry) =>
        match enter entry with
        | .error fault => (.failed fault, none)
        | .ok false =>
          match unit.behind fuel entry with
          | .error cause => (.node entry false .done (.unread cause), none)
          | .ok none => (.node entry false .done .done, none)
          | .ok (some next) =>
            let (siblings, place) := unit.forestFrom enter fuel next
            (.node entry false .done siblings, place)
        | .ok true =>
          match entry.stop with
          | .error cause =>
            if entry.hasChildren then (.node entry true (.unread cause) .done, none)
            else (.node entry true .done (.unread cause), none)
          | .ok start =>
            let (children, place) :=
              if entry.hasChildren then unit.forestFrom enter fuel start else (.done, some start)
            match place with
            | none => (.node entry true children .done, none)
            | some next =>
              let (siblings, place) := unit.forestFrom enter fuel next
              (.node entry true children siblings, place)

def forest (unit : CompilationUnit) (enter : Entry → Except Symbolizer.Fault Bool) :
    Except Fault Forest := do
  match ← unit.item unit.header.start with
  | .null _ => throw .unexpectedNull
  | .entry root =>
    if !root.hasChildren then return .done
    match root.stop with
    | .error cause => return .unread cause
    | .ok start => return (unit.forestFrom enter unit.header.entries.length start).1

end CompilationUnit

end Symbolizer.Dwarf
