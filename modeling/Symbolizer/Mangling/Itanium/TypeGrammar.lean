import Symbolizer.Mangling.Itanium.Fragment

/-!
Types. Builtin types aside, each one that is read can be referred back to.
-/

namespace Symbolizer.Mangling.Itanium.Grammar

open Read

def namedTypeOf (g : Grammar) : Read CType :=
  firstOf
    [CType.named "" <$> g.name,
      do
        eat "Ts"
        CType.named "class " <$> g.name,
      do
        eat "Tu"
        CType.named "union " <$> g.name,
      do
        eat "Te"
        CType.named "enum " <$> g.name]

def exceptionsOf (g : Grammar) : Read ExceptionSpec :=
  firstOf
    [do
        eat "Do"
        return .noexcept,
      do
        eat "DO"
        let condition ← g.expression
        eat "E"
        return .computed condition,
      do
        eat "Dw"
        let types ← oneOrMore g.type
        eat "E"
        return .listed types]

def signatureOf (g : Grammar) : Read (List TypeRef) :=
  oneOrMore g.type

def functionTypeOf (g : Grammar) : Read FunctionType := do
  let qualifiers ← qualifiers g.levels
  let exceptions ← attempt? g.exceptions
  let _ ← has "Dx"
  eat "F"
  let _ ← has "Y"
  let types ← g.signature
  let reference ← refQualifier? g.levels
  eat "E"
  return ⟨qualifiers, exceptions, types, reference⟩

def arrayTypeOf (g : Grammar) : Read CType := do
  eat "A"
  let dimension : Dimension ← match ← attempt? decimal with
    | some n => pure (.number n)
    | none =>
      match ← attempt? g.expression with
      | some expression => pure (.expression expression)
      | none => pure .none
  eat "_"
  return .array dimension (← g.type)

def vectorTypeOf (g : Grammar) : Read CType := do
  eat "Dv"
  let dimension : Dimension ← match ← attempt? decimal with
    | some n => pure (.number n)
    | none => do
      eat "_"
      pure (.expression (← g.expression))
  eat "_"
  return .vector dimension (← g.type)

def memberTypeOf (g : Grammar) : Read CType := do
  eat "M"
  let scope ← g.type
  return .pointerToMember scope (← g.type)

def templateTemplateOf (g : Grammar) : Read Link := do
  match ← attempt? (substitution g.levels) with
  | some link => return link
  | none => do
    let levels ← descend g.levels
    remember (.templateParam (← templateParam levels))

def substitutedType (g : Grammar) : Read TypeRef := do
  let link ← substitution g.levels
  if ← startsWith "I" then fail
  return .link link

def parameterType (g : Grammar) : Read CType := do
  let start ← get
  let index ← templateParam g.levels
  if !(← startsWith "I") || (← getThe Memory).inConversion then return .templateParam index
  set start
  let template ← g.templateTemplate
  return .templateTemplate template (← g.templateArgs)

def appliedTemplate (g : Grammar) : Read CType := do
  let template ← g.templateTemplate
  return .templateTemplate template (← g.templateArgs)

def qualifiedType (g : Grammar) : Read CType := do
  let qualifiers ← qualifiers g.levels
  if qualifiers.isEmpty then fail
  match ← attempt? (builtin g.levels) with
  | some type => return .qualified qualifiers type
  | none => return .qualified qualifiers (← g.type)

def behind (g : Grammar) (mark : String) (make : TypeRef → CType) : Read CType := do
  eat mark
  return make (← g.type)

def vendorType (g : Grammar) : Read CType := do
  eat "U"
  let name ← sourceName g.levels
  let args ← attempt? g.templateArgs
  return .vendor name args (← g.type)

/-- Everything but builtin types and substitutions can be referred back to. -/
def typeOf (g : Grammar) : Read TypeRef := do
  let remembered (read : Read CType) : Read TypeRef := do
    rememberType (← read)
  firstOf
    [builtin g.levels, remembered g.namedType, substitutedType g,
      remembered (CType.function <$> g.functionType), remembered g.arrayType,
      remembered g.vectorType, remembered g.memberType, remembered (parameterType g),
      remembered (appliedTemplate g), remembered (CType.decltype <$> g.decltype),
      remembered (qualifiedType g), remembered (behind g "P" .pointer),
      remembered (behind g "R" .lvalueRef), remembered (behind g "O" .rvalueRef),
      remembered (behind g "C" .complex), remembered (behind g "G" .imaginary),
      remembered (vendorType g), remembered (behind g "Dp" .packExpansion)]

end Symbolizer.Mangling.Itanium.Grammar
