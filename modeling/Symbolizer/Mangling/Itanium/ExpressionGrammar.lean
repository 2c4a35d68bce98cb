import Symbolizer.Mangling.Itanium.Fragment

/-!
Template arguments, and the expressions in them and in types that depend on template parameters.
-/

namespace Symbolizer.Mangling.Itanium.Grammar

open Read

def templateArgsOf (g : Grammar) : Read TemplateArgs := do
  let place ← place
  eat "I"
  let args ← zeroOrMore g.templateArg
  eat "E"
  return .mk place args

def templateArgOf (g : Grammar) : Read TemplateArg := do
  if ← has "X" then
    let expression ← g.expression
    eat "E"
    return .expression expression
  if let some expression ← attempt? g.primary then return .expression expression
  if let some type ← attempt? g.type then return .type type
  orElse (eat "J") (eat "I")
  let args ← zeroOrMore g.templateArg
  eat "E"
  return .pack args

/-- The digits of a literal are whatever stands in front of the end mark. -/
def primaryOf (g : Grammar) : Read Expression := do
  eat "L"
  match ← attempt? g.type with
  | some type => do
    let rest ← get
    let digits := rest.takeWhile (· != 'E')
    set (rest.drop digits.length)
    eat "E"
    return .literal type digits
  | none => do
    let mangled ← g.mangled
    eat "E"
    return .external mangled.encoding mangled.suffixes

def decltypeOf (g : Grammar) : Read Expression := do
  orElse (eat "Dt") (eat "DT")
  let expression ← g.expression
  eat "E"
  return expression

/-- The number of a parameter counts from zero behind the first, which has no number. -/
def functionParam (levels : Nat) : Read (Option Nat) := do
  let levels ← descend levels
  eat "f"
  if ← has "pT" then return none
  if ← has "L" then
    let _ ← decimal
  eat "p"
  let _ ← qualifiers levels
  if ← has "T" then return none
  match ← optionalNumber with
  | some n => return some (n + 1)
  | none => return some 0

def expressionsToEnd (g : Grammar) : Read (List Expression) := do
  let expressions ← zeroOrMore g.expression
  eat "E"
  return expressions

def conversion (g : Grammar) : Read Expression := do
  eat "cv"
  let type ← g.type
  if ← has "_" then return .convert type (← expressionsToEnd g)
  return .convert type [← g.expression]

def castKeywords : List (String × String) :=
  [("dc", "dynamic_cast"), ("sc", "static_cast"), ("cc", "const_cast"), ("rc", "reinterpret_cast")]

def typeKeywords : List (String × String) :=
  [("ti", "typeid"), ("st", "sizeof "), ("at", "alignof ")]

def operandKeywords : List (String × String) :=
  [("te", "typeid"), ("sz", "sizeof "), ("az", "alignof "), ("nx", "noexcept ")]

def newKeywords : List (String × String) :=
  [("gsnw", "::new"), ("gsna", "::new[]"), ("nw", "new"), ("na", "new[]")]

def prefixedKeywords : List (String × String) :=
  [("gsdl", "::delete "), ("gsda", "::delete[] "), ("dl", "delete "), ("da", "delete[] "),
    ("tw", "throw ")]

def stepSymbols : List (String × String) :=
  [("pp_", "++"), ("mm_", "--")]

def newExpression (g : Grammar) : Read Expression := do
  let keyword ← word newKeywords
  let placement ← zeroOrMore g.expression
  eat "_"
  let type ← g.type
  if ← has "E" then return .new keyword placement type none
  return .new keyword placement type (some (← g.initializer))

def initializerOf (g : Grammar) : Read (List Expression) := do
  eat "pi"
  expressionsToEnd g

def memberOf (g : Grammar) (mark connector : String) : Read Expression := do
  eat mark
  let object ← g.expression
  match ← attempt? g.member with
  | some name => return .member connector object name
  | none => return .unresolvedMember connector object (← g.unresolved)

def packSize (levels : Nat) : Read Expression := do
  eat "sZ"
  Expression.packSize <$>
    orElse (Expression.templateParam <$> templateParam levels)
      (Expression.functionParam <$> functionParam levels)

def subobjectOf (g : Grammar) : Read Expression := do
  let type ← g.type
  let object ← g.expression
  let offset ← attempt? signed
  eat "E"
  return .subobject type object (offset.getD 0)

def coded (g : Grammar) : Read Expression :=
  firstOf
    [do
        eat "cl"
        let function ← g.expression
        return .call function (← expressionsToEnd g),
      do
        let symbol ← word stepSymbols
        return .step symbol (← g.expression),
      conversion g,
      do
        eat "tl"
        let type ← g.type
        return .braced (some type) (← expressionsToEnd g),
      do
        eat "il"
        return .braced none (← expressionsToEnd g),
      newExpression g,
      do
        let keyword ← word prefixedKeywords
        return .prefixed keyword (← g.expression),
      do
        let keyword ← word castKeywords
        let type ← g.type
        return .castTo keyword type (← g.expression),
      do
        let keyword ← word typeKeywords
        return .ofType keyword (← g.type),
      do
        let keyword ← word operandKeywords
        return .ofExpression keyword (← g.expression),
      memberOf g "dt" ".",
      memberOf g "pt" "->",
      do
        eat "ds"
        let object ← g.expression
        return .memberPointer object (← g.expression),
      packSize g.levels,
      do
        eat "sP"
        let args ← zeroOrMore g.templateArg
        eat "E"
        return .capturedPackSize args,
      do
        eat "so"
        g.subobject,
      do
        eat "sp"
        return .packExpansion (← g.expression),
      do
        eat "tr"
        return .rethrow]

def operation (g : Grammar) : Read Expression := do
  let operator ← g.operator true
  let first ← g.expression
  if operator.arity = 1 then return .unary operator first
  let second ← g.expression
  if operator.arity = 2 then return .binary operator first second
  let third ← g.expression
  if operator.arity = 3 then return .ternary operator first second third
  fail

def expressionOf (g : Grammar) : Read Expression :=
  firstOf
    [g.primary, Expression.templateParam <$> templateParam g.levels,
      Expression.functionParam <$> functionParam g.levels, coded g,
      Expression.unresolved <$> g.unresolved, operation g]

def unresolvedOf (g : Grammar) : Read Unresolved := do
  let isGlobal ← has "gs"
  if let some base ← attempt? g.baseName then return .simple isGlobal base
  eat "sr"
  let inScopes : Read Unresolved := do
    let levels ← oneOrMore g.qualifierLevel
    eat "E"
    return .inScopes isGlobal levels (← g.baseName)
  if isGlobal then inScopes
  else if ← has "N" then
    let type ← g.unresolvedType
    let levels ← oneOrMore g.qualifierLevel
    eat "E"
    return .inType type levels (← g.baseName)
  else if ← startsWith "St" then
    let type ← g.type
    return .inType type [] (← g.baseName)
  else
    match ← attempt? g.unresolvedType with
    | some type => return .inType type [] (← g.baseName)
    | none => inScopes

def unresolvedTypeOf (g : Grammar) : Read TypeRef := do
  if let some index ← attempt? (templateParam g.levels) then
    let args ← attempt? g.templateArgs
    return .link (← remember (.unresolvedTemplate index args))
  if let some expression ← attempt? g.decltype then
    return .link (← remember (.unresolvedDecltype expression))
  return .link (← substitution g.levels)

def destructorNameOf (g : Grammar) : Read BaseName := do
  match ← attempt? g.unresolvedType with
  | some type => return .destructorOf type
  | none => return .destructorNamed (← g.simpleId)

def baseNameOf (g : Grammar) : Read BaseName := do
  if let some id ← attempt? g.simpleId then return .id id
  if ← has "on" then
    let operator ← g.operator false
    return .operator operator (← attempt? g.templateArgs)
  eat "dn"
  g.destructorName

def simpleIdOf (g : Grammar) : Read SimpleId := do
  let name ← sourceName g.levels
  return .mk name (← attempt? g.templateArgs)

end Symbolizer.Mangling.Itanium.Grammar
