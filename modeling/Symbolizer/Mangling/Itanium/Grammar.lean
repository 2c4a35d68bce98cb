import Symbolizer.Mangling.Itanium.Reader

/-!
The productions of Itanium names, each with a reader. Productions use one another through a record
of readers, and the readers in the record of one level use the record of the next, so that the depth
of the nesting is bounded.
-/

namespace Symbolizer.Mangling.Itanium

/-- Readers of the productions that others mention, and the number of levels from there on. -/
structure Grammar where
  levels : Nat
  mangled : Read Mangled
  encoding : Read Encoding
  name : Read Name
  nestedName : Read Name
  unscopedName : Read (Bool × TaggedName)
  templateName : Read Link
  localName : Read Name
  scopes : Read Link
  scopeStep : Option Link → Char → Read Link
  unqualified : Read TaggedName
  closure : Read Unqualified
  closureTypes : Read (List TypeRef)
  operator : Bool → Read Operator
  specialName : Read Encoding
  type : Read TypeRef
  namedType : Read CType
  functionType : Read FunctionType
  signature : Read (List TypeRef)
  exceptions : Read ExceptionSpec
  arrayType : Read CType
  vectorType : Read CType
  memberType : Read CType
  templateTemplate : Read Link
  templateArgs : Read TemplateArgs
  templateArg : Read TemplateArg
  expression : Read Expression
  primary : Read Expression
  decltype : Read Expression
  member : Read Name
  initializer : Read (List Expression)
  subobject : Read Expression
  unresolved : Read Unresolved
  unresolvedType : Read TypeRef
  baseName : Read BaseName
  destructorName : Read BaseName
  qualifierLevel : Read SimpleId
  simpleId : Read SimpleId

namespace Grammar

open Read

def exhausted : Grammar :=
  let stop {α : Type} : Read α := throw .tooDeep
  { levels := 0, mangled := stop, encoding := stop, name := stop, nestedName := stop,
    unscopedName := stop, templateName := stop, localName := stop, scopes := stop,
    scopeStep := fun _ _ => stop, unqualified := stop, closure := stop, closureTypes := stop,
    operator := fun _ => stop, specialName := stop, type := stop, namedType := stop,
    functionType := stop, signature := stop, exceptions := stop, arrayType := stop,
    vectorType := stop, memberType := stop, templateTemplate := stop, templateArgs := stop,
    templateArg := stop, expression := stop, primary := stop, decltype := stop, member := stop,
    initializer := stop, subobject := stop, unresolved := stop, unresolvedType := stop,
    baseName := stop, destructorName := stop, qualifierLevel := stop, simpleId := stop }

end Grammar

end Symbolizer.Mangling.Itanium
