import Symbolizer.Mangling.Itanium.Part

/-!
Writing names with the scopes in front of them, and the tags, qualifiers and parameters behind.
-/

namespace Symbolizer.Mangling.Itanium.Write

def isAnonymousNamespace (name : String) : Bool :=
  match name.toList with
  | '_' :: 'G' :: 'L' :: 'O' :: 'B' :: 'A' :: 'L' :: '_' :: c :: 'N' :: _ =>
    c == '.' || c == '_' || c == '$'
  | _ => false

def source (name : String) : Write Unit := do
  if isAnonymousNamespace name then text "(anonymous namespace)"
  else
    modify fun state => { state with lastSource := some name }
    text name

def ordinal (number : Option Nat) : Write Unit :=
  nat (match number with
    | some n => n + 2
    | none => 1)

def closure (go : Go) (parameters : List TypeRef) (number : Option Nat) (scopes : Scopes) :
    Write Unit := do
  text "\x7blambda("
  modify fun state => { state with inClosure := true }
  apart (list ", " (fun type => typeRef go type scopes) parameters)
  modify fun state => { state with inClosure := false }
  text ")#"
  ordinal number
  text "\x7d"

def unnamed (number : Option Nat) : Write Unit := do
  text "\x7bunnamed type#"
  nat (match number with
    | some n => n + 1
    | none => 1)
  text "\x7d"

/-- Constructors of a type without a name borrow the name written last. -/
def borrowed (unnamed : Write Unit) : Write Unit := do
  match (← get).lastSource with
  | some name => text name
  | none => unnamed

def className (go : Go) (scopes : Scopes) : Write Unit :=
  match scopes.className? with
  | some (.className (.source name)) => source name
  | some (.className (.closure parameters number)) => borrowed (closure go parameters number scopes)
  | some (.className (.unnamed number)) => borrowed (unnamed number)
  | some (.standard component) =>
    match component.ownName? with
    | some name => text name
    | none => failure
  | _ => failure

def operator (go : Go) (operator : Operator) (scopes : Scopes) : Write Unit := do
  match operator with
  | .simple operator => do
    if operator.isWord then space
    text operator.symbol
  | .cast type | .conversion type => do
    space
    let table ← read
    match typeArgs? table (table.size + 1) type with
    | some args => typeRef go type (.args args none :: scopes)
    | none => typeRef go type scopes
  | .literal name => do
    source name
    text "::operator \"\""
  | .vendor arity name => do
    source name
    text "::operator "
    nat arity

def unqualified (go : Go) (name : Unqualified) (scopes : Scopes) : Write Unit := do
  match name with
  | .operator symbol => do
    text "operator"
    operator go symbol scopes
  | .constructor none => className go scopes
  | .constructor (some type) => typeRef go type scopes
  | .destructor => do
    text "~"
    className go scopes
  | .source name => source name
  | .closure parameters number => closure go parameters number scopes
  | .unnamed number => unnamed number

def tagged (go : Go) (name : TaggedName) (scopes : Scopes) : Write Unit := do
  unqualified go name.name scopes
  list "" (fun tag => do
    text "[abi:"
    source tag
    text "]") name.tags

def behindScope (go : Go) (outer : Link) (name : TaggedName) (scopes : Scopes) : Write Unit := do
  link go outer scopes
  text "::"
  let table ← read
  let inner :=
    match leafOf? table (table.size + 1) outer with
    | some leaf => leaf :: scopes
    | none => scopes
  go (.tagged name) inner

def templated (go : Go) (template : Link) (args : TemplateArgs) (scopes : Scopes) : Write Unit := do
  link go template scopes
  go (.args args) scopes

def scope (go : Go) (scope : Scope) (scopes : Scopes) : Write Unit := do
  match scope with
  | .name name => go (.tagged name) scopes
  | .nested outer name => behindScope go outer name scopes
  | .template template args => templated go template args scopes
  | .templateParam index => go (.entry (.templateParam index)) scopes
  | .decltype expression => go (.entry (.unresolvedDecltype expression)) scopes
  | .member outer name => do
    link go outer scopes
    text "::"
    source name

def qualifiers (qualifiers : Qualifiers) : Write Unit := do
  if qualifiers.isConst then
    space
    text "const"
  if qualifiers.isVolatile then
    space
    text "volatile"
  if qualifiers.isRestrict then
    space
    text "restrict"

def refQualifier : Option RefQualifier → Write Unit
  | none => return
  | some reference => do
    space
    text (match reference with
      | .lvalue => "&"
      | .rvalue => "&&")

def afterNested (go : Go) (marks : Qualifiers) (reference : Option RefQualifier) (scopes : Scopes) :
    Write Unit := do
  if let some pending ← pop? then go (.pending pending) scopes
  qualifiers marks
  refQualifier reference

def unscoped (go : Go) (isStd : Bool) (name : TaggedName) (scopes : Scopes) : Write Unit := do
  if isStd then text "std::"
  go (.tagged name) scopes

def name (go : Go) (name : Name) (scopes : Scopes) : Write Unit := do
  match name with
  | .nested marks reference outer inner => do
    behindScope go outer inner scopes
    afterNested go marks reference scopes
  | .nestedTemplate marks reference whole => do
    link go whole scopes
    afterNested go marks reference scopes
  | .unscoped isStd inner => unscoped go isStd inner scopes
  | .template template args => do
    link go template (.args args none :: scopes)
    go (.args args) scopes
  | .inFunction function inner => do
    go (.encoding function) scopes
    text "::"
    go (.name inner) scopes
  | .literalIn function => do
    go (.encoding function) scopes
    text "::string literal"

end Symbolizer.Mangling.Itanium.Write
