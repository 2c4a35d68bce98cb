import Symbolizer.Mangling.Itanium.Fragment

/-!
Names of functions and variables, the scopes in front of them, operators, and the names of what
compilers make besides.
-/

namespace Symbolizer.Mangling.Itanium.Grammar

open Read

def mangledName (g : Grammar) : Read Mangled := do
  eat "_Z"
  let encoding ← g.encoding
  return ⟨encoding, ← zeroOrMore (cloneSuffix g.levels)⟩

def encodingOf (g : Grammar) : Read Encoding := do
  match ← attempt? g.name with
  | some name =>
    match ← attempt? g.signature with
    | some types => return .function name types
    | none => return .data name
  | none => g.specialName

def anyName (g : Grammar) : Read Name := do
  if let some name ← attempt? g.nestedName then return name
  if let some (isStd, name) ← attempt? g.unscopedName then
    if ← startsWith "I" then
      let template ← remember (.templateName isStd name)
      return .template template (← g.templateArgs)
    return .unscoped isStd name
  if let some template ← attempt? g.templateName then
    return .template template (← g.templateArgs)
  g.localName

def nestedNameOf (g : Grammar) : Read Name := do
  eat "N"
  let qualifiers ← qualifiers g.levels
  let reference ← refQualifier? g.levels
  let whole ← g.scopes
  eat "E"
  match (← getThe Memory).table.find? whole with
  | some (.scope (.nested outer name)) => return .nested qualifiers reference outer name
  | some (.scope (.template _ _)) => return .nestedTemplate qualifiers reference whole
  | _ => fail

def unscopedNameOf (g : Grammar) : Read (Bool × TaggedName) := do
  if ← has "St" then return (true, ← g.unqualified)
  return (false, ← g.unqualified)

def templateNameOf (g : Grammar) : Read Link := do
  match ← attempt? g.unscopedName with
  | some (isStd, name) => remember (.templateName isStd name)
  | none => substitution g.levels

def localNameOf (g : Grammar) : Read Name := do
  eat "Z"
  let function ← g.encoding
  eat "E"
  if ← has "s" then
    let _ ← attempt? (discriminator g.levels)
    return .literalIn function
  if ← has "d" then
    let _ ← descend g.levels
    let _ ← attempt? signed
    eat "_"
    return .inFunction function (← g.name)
  let name ← g.name
  let _ ← attempt? (discriminator g.levels)
  return .inFunction function name

/-- The last component cannot be referred back to. -/
def enter (scope : Scope) : Read Link := do
  if ← startsWith "E" then rememberLast (.scope scope) else remember (.scope scope)

def within (outer : Option Link) (name : TaggedName) : Scope :=
  match outer with
  | some outer => .nested outer name
  | none => .name name

def admitsArgs (table : Table) (link : Link) : Bool :=
  match table.find? link with
  | some (.scope (.template _ _)) => false
  | some (.scope (.decltype _)) => false
  | some (.scope (.member _ _)) => false
  | _ => true

/-- A component behind others; a source name may instead be a data member that scopes a closure. -/
def component (g : Grammar) (outer : Option Link) (c : Char) : Read Link := do
  match outer with
  | some link =>
    if '0' ≤ c ∧ c ≤ '9' then
      let name ← sourceName g.levels
      if ← has "M" then remember (.scope (.member link name))
      else enter (.nested link ⟨.source name, ← abiTags g.levels⟩)
    else enter (.nested link (← g.unqualified))
  | none => enter (.name (← g.unqualified))

def scopeStepOf (g : Grammar) (current : Option Link) (c : Char) : Read Link := do
  match c, current with
  | 'S', _ => substitution g.levels
  | 'T', _ => enter (.templateParam (← templateParam g.levels))
  | 'I', some template => do
    if !admitsArgs (← getThe Memory).table template then fail
    enter (.template template (← g.templateArgs))
  | 'D', _ =>
    match ← attempt? g.decltype with
    | some expression => enter (.decltype expression)
    | none => enter (within current (← g.unqualified))
  | c, _ => component g current c

def scopesFrom (g : Grammar) : Nat → Option Link → Read Link
  | 0, _ => fail
  | fuel + 1, current => do
    match ← peek?, current with
    | some 'E', some whole => return whole
    | some 'E', none => fail
    | none, _ => fail
    | some c, _ => scopesFrom g fuel (some (← g.scopeStep current c))

def scopesOf (g : Grammar) : Read Link := do
  scopesFrom g ((← place) + 1) none

def structor (g : Grammar) : Read Unqualified := do
  let _ ← descend g.levels
  if ← has "C" then
    let isInherited ← has "I"
    firstOf [eat "1", eat "2", eat "3", eat "4"]
    if isInherited then return .constructor (some (← g.type))
    return .constructor none
  eat "D"
  firstOf [eat "0", eat "1", eat "2", eat "4"]
  return .destructor

def localSourceName (levels : Nat) : Read Unqualified := do
  eat "L"
  let name ← sourceName levels
  let _ ← attempt? (discriminator levels)
  return .source name

def closureOf (g : Grammar) : Read Unqualified := do
  eat "Ul"
  let parameters ← g.closureTypes
  eat "E"
  return .closure parameters (← optionalNumber)

def closureTypesOf (g : Grammar) : Read (List TypeRef) := do
  if ← has "v" then return []
  oneOrMore g.type

def unnamed (levels : Nat) : Read Unqualified := do
  let _ ← descend levels
  eat "Ut"
  return .unnamed (← optionalNumber)

def unqualifiedOf (g : Grammar) : Read TaggedName := do
  let name ← firstOf
    [Unqualified.operator <$> g.operator false, structor g, localSourceName g.levels,
      Unqualified.source <$> sourceName g.levels, g.closure, unnamed g.levels]
  return ⟨name, ← abiTags g.levels⟩

/-- Template arguments behind the type of a conversion belong to the operator. -/
def convertedType (g : Grammar) (isExpression : Bool) : Read TypeRef := do
  let before := (← getThe Memory).inConversion
  modifyThe Memory fun memory => { memory with inConversion := !isExpression }
  let type ← attempt? g.type
  modifyThe Memory fun memory => { memory with inConversion := before }
  match type with
  | some type => return type
  | none => fail

def vendorOperator (levels : Nat) : Read Operator := do
  eat "v"
  match ← peek? with
  | some c =>
    match Text.digitIn 10 c with
    | some arity => do
      eat c.toString
      return .vendor arity (← sourceName levels)
    | none => fail
  | none => fail

def operatorOf (g : Grammar) (isExpression : Bool) : Read Operator := do
  let _ ← descend g.levels
  if let some operator ← attempt? (word operators) then return .simple operator
  if ← has "cv" then
    let type ← convertedType g isExpression
    return if isExpression then .cast type else .conversion type
  if ← has "li" then return .literal (← sourceName g.levels)
  vendorOperator g.levels

def typeObjectCodes : List (String × TypeObject) :=
  [("TV", .vtable), ("TT", .vtt), ("TI", .typeinfo), ("TS", .typeinfoName), ("TF", .typeinfoFunction)]

def variableObjectCodes : List (String × VariableObject) :=
  [("TH", .threadLocalInit), ("TW", .threadLocalWrapper), ("GV", .guard)]

def temporaryNumber (levels : Nat) : Read Nat := do
  if ← has "_" then return 0
  let _ ← descend levels
  let number ← number 36
  eat "_"
  return number + 1

/-- Any letter but one tells a clone for transactions. -/
def clone (g : Grammar) : Read Encoding := do
  if ← has "n" then return .clone .nonTransaction (← g.encoding)
  modify (List.drop 1)
  return .clone .transaction (← g.encoding)

def specialNameOf (g : Grammar) : Read Encoding := do
  if let some kind ← attempt? (word typeObjectCodes) then return .typeObject kind (← g.type)
  if let some kind ← attempt? (word variableObjectCodes) then
    return .variableObject kind (← g.name)
  if ← has "Tc" then
    let first ← callOffset g.levels
    let second ← callOffset g.levels
    return .thunk [first, second] (← g.encoding)
  if ← has "TC" then
    let type ← g.type
    let _ ← decimal
    eat "_"
    return .constructionVtable type (← g.type)
  if ← has "GR" then
    let name ← g.name
    return .variableObject (.temporary (← temporaryNumber g.levels)) name
  if ← has "Gr" then return .resource (← resource)
  if ← has "GT" then return ← clone g
  eat "T"
  let offset ← callOffset g.levels
  return .thunk [offset] (← g.encoding)

end Symbolizer.Mangling.Itanium.Grammar
