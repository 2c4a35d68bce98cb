import Symbolizer.Mangling.Itanium.ExpressionPrinter
import Symbolizer.Mangling.Itanium.Reading

/-!
The readable form of Itanium names. Every part is written by a function that reaches other parts
through one that has a level less, so that names which refer to themselves come to an end.
-/

namespace Symbolizer.Mangling.Itanium

namespace Write

def part (go : Go) : Part → Scopes → Write Unit
  | .encoding target => encoding go target
  | .name target => name go target
  | .tagged target => tagged go target
  | .entry entry => entryOf go entry
  | .args args => templateArgs go args
  | .arg arg => templateArg go arg
  | .pending declarator => pending go declarator
  | .expression target => expression go target
  | .unresolved target => unresolved go target
  | .id id => simpleId go id

def ofDepth : Nat → Part → Scopes → Write Unit
  | 0, _, _ => failure
  | depth + 1, target, scopes => part (ofDepth depth) target scopes

end Write

def maxDepth : Nat := 124

def render? (name : Mangled) (table : Table) : Option String :=
  let start : State := ⟨"", none, none, [], 0, false, false⟩
  let write := Write.mangled (Write.ofDepth maxDepth) name.encoding name.suffixes []
  ((write.run table).run start).map fun (_, state) => state.written

def demangle? (name : List Char) : Option String := do
  let (mangled, table) ← read? name
  render? mangled table

end Symbolizer.Mangling.Itanium
