import Symbolizer.Mangling.Itanium.ExpressionGrammar
import Symbolizer.Mangling.Itanium.NameGrammar
import Symbolizer.Mangling.Itanium.TypeGrammar

/-!
All productions together: the record of readers of any depth, and the reading of a whole name.
-/

namespace Symbolizer.Mangling.Itanium

namespace Grammar

def above (g : Grammar) : Grammar where
  levels := g.levels + 1
  mangled := mangledName g
  encoding := encodingOf g
  name := anyName g
  nestedName := nestedNameOf g
  unscopedName := unscopedNameOf g
  templateName := templateNameOf g
  localName := localNameOf g
  scopes := scopesOf g
  scopeStep := scopeStepOf g
  unqualified := unqualifiedOf g
  closure := closureOf g
  closureTypes := closureTypesOf g
  operator := operatorOf g
  specialName := specialNameOf g
  type := typeOf g
  namedType := namedTypeOf g
  functionType := functionTypeOf g
  signature := signatureOf g
  exceptions := exceptionsOf g
  arrayType := arrayTypeOf g
  vectorType := vectorTypeOf g
  memberType := memberTypeOf g
  templateTemplate := templateTemplateOf g
  templateArgs := templateArgsOf g
  templateArg := templateArgOf g
  expression := expressionOf g
  primary := primaryOf g
  decltype := decltypeOf g
  member := g.name
  initializer := initializerOf g
  subobject := subobjectOf g
  unresolved := unresolvedOf g
  unresolvedType := unresolvedTypeOf g
  baseName := baseNameOf g
  destructorName := destructorNameOf g
  qualifierLevel := g.simpleId
  simpleId := simpleIdOf g

def ofDepth : Nat → Grammar
  | 0 => exhausted
  | depth + 1 => above (ofDepth depth)

end Grammar

def maxNesting : Nat := 95

def read? (name : List Char) : Option (Mangled × Table) :=
  match ((Grammar.ofDepth maxNesting).mangled.run name).run.run ⟨Table.empty, false⟩ with
  | (.ok (mangled, []), memory) => some (mangled, memory.table)
  | _ => none

end Symbolizer.Mangling.Itanium
