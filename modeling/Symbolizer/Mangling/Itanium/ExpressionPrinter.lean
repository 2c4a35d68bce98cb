import Symbolizer.Mangling.Itanium.ObjectPrinter
import Symbolizer.Mangling.Itanium.TypePrinter

/-!
Writing template arguments and expressions. Operands stand in parentheses unless they are a
parameter or a name.
-/

namespace Symbolizer.Mangling.Itanium.Write

/-- Adjacent angle brackets are kept apart. -/
def templateArgs (go : Go) (args : TemplateArgs) (scopes : Scopes) : Write Unit :=
  apart do
    if (← get).lastChar = some '<' then text " "
    text "<"
    list ", " (fun (arg, index) => go (.arg arg) (scopes.entering args.place index)) args.args.zipIdx
    if (← get).lastChar = some '>' then text " "
    text ">"

def templateArg (go : Go) (arg : TemplateArg) (scopes : Scopes) : Write Unit :=
  match arg with
  | .type type => typeRef go type scopes
  | .expression expression => go (.expression expression) scopes
  | .pack args => do
    modify fun state => { state with sawPack := true }
    list ", " (fun arg => go (.arg arg) scopes) args

def digits : List Char → Write Unit
  | 'n' :: rest => text ("-" ++ String.ofList rest)
  | digits => text (String.ofList digits)

def literalType (go : Go) (type : TypeRef) (scopes : Scopes) : Write Unit := do
  text "("
  typeRef go type scopes
  text ")"

def literal (go : Go) (type : TypeRef) (value : List Char) (scopes : Scopes) : Write Unit := do
  match type, value with
  | .builtin "bool", ['0'] => text "false"
  | .builtin "bool", ['1'] => text "true"
  | .builtin "std::nullptr_t", _ => text "nullptr"
  | .builtin "int", value => digits value
  | .builtin "double", value => floating value
  | .builtin "float", value => floating value
  | type, value => do
    literalType go type scopes
    digits value
where
  floating (value : List Char) : Write Unit := do
    literalType go type scopes
    match value with
    | 'n' :: rest => text ("-[" ++ String.ofList rest ++ "]")
    | value => text ("[" ++ String.ofList value ++ "]")

def needsParentheses : Expression → Bool
  | .functionParam _ => false
  | .external _ _ => false
  | _ => true

def operand (go : Go) (expression : Expression) (scopes : Scopes) : Write Unit := do
  if needsParentheses expression then
    text "("
    go (.expression expression) scopes
    text ")"
  else go (.expression expression) scopes

def expressions (go : Go) (elements : List Expression) (scopes : Scopes) : Write Unit :=
  list ", " (fun element => go (.expression element) scopes) elements

/-- A larger-than sign stands in parentheses of its own, so that it closes no template. -/
def binary (go : Go) (symbol : Operator) (left right : Expression) (scopes : Scopes) :
    Write Unit := do
  match symbol with
  | .simple ⟨">", _, _⟩ => do
    text "(("
    go (.expression left) scopes
    text ")>("
    go (.expression right) scopes
    text "))"
  | symbol => do
    operand go left scopes
    operator go symbol scopes
    operand go right scopes

def ternary (go : Go) (symbol : Operator) (first second third : Expression) (scopes : Scopes) :
    Write Unit := do
  match symbol with
  | .simple ⟨"?:", _, _⟩ => do
    operand go first scopes
    text "?"
    operand go second scopes
    text " : "
    operand go third scopes
  | symbol => do
    operator go symbol scopes
    text "("
    expressions go [first, second, third] scopes
    text ")"

def inParentheses (go : Go) (elements : List Expression) (scopes : Scopes) : Write Unit := do
  text "("
  expressions go elements scopes
  text ")"

def memberName (go : Go) (member : Name) (scopes : Scopes) : Write Unit := do
  if (templateArgs? (← read) member).isSome then
    text "("
    go (.name member) scopes
    text ")"
  else go (.name member) scopes

def expression (go : Go) (expression : Expression) (scopes : Scopes) : Write Unit := do
  match expression with
  | .unary symbol value => do
    operator go symbol scopes
    operand go value scopes
  | .binary symbol left right => binary go symbol left right scopes
  | .ternary symbol first second third => ternary go symbol first second third scopes
  | .step symbol value => do
    text symbol
    go (.expression value) scopes
  | .call function args => do
    text "("
    go (.expression function) scopes
    text ")"
    inParentheses go args scopes
  | .convert type operands => do
    text "("
    typeRef go type scopes
    text ")"
    inParentheses go operands scopes
  | .braced type elements => do
    if let some type := type then typeRef go type scopes
    text "\x7b"
    expressions go elements scopes
    text "\x7d"
  | .new keyword placement type init => do
    text (keyword ++ " ")
    inParentheses go placement scopes
    text " "
    typeRef go type scopes
    if let some elements := init then inParentheses go elements scopes
  | .prefixed keyword value => do
    text keyword
    go (.expression value) scopes
  | .castTo keyword type value => do
    text (keyword ++ "<")
    typeRef go type scopes
    text ">("
    go (.expression value) scopes
    text ")"
  | .ofType keyword type => do
    text (keyword ++ "(")
    typeRef go type scopes
    text ")"
  | .ofExpression keyword value => do
    text (keyword ++ "(")
    go (.expression value) scopes
    text ")"
  | .templateParam index => templateParam go index scopes
  | .functionParam none => text "this"
  | .functionParam (some n) => text ("\x7bparm#" ++ Text.decimal (n + 1) ++ "\x7d")
  | .member connector object member => do
    go (.expression object) scopes
    text connector
    memberName go member scopes
  | .unresolvedMember connector object member => do
    go (.expression object) scopes
    text connector
    go (.unresolved member) scopes
  | .memberPointer object pointer => do
    go (.expression object) scopes
    text ".*"
    go (.expression pointer) scopes
  | .packSize value => do
    text "sizeof...("
    go (.expression value) scopes
    text ")"
  | .capturedPackSize args => do
    text "sizeof...("
    list ", " (fun arg => go (.arg arg) scopes) args
    text ")"
  | .packExpansion value => do
    operand go value scopes
    text "..."
  | .subobject type object offset => do
    go (.expression object) scopes
    text ".<"
    typeRef go type scopes
    text (" at offset " ++ signedText offset ++ ">")
  | .rethrow => text "throw"
  | .unresolved name => go (.unresolved name) scopes
  | .literal type value => literal go type value scopes
  | .external target suffixes => mangled go target suffixes scopes

def simpleId (go : Go) (id : SimpleId) (scopes : Scopes) : Write Unit :=
  match id with
  | .mk name args => do
    source name
    optionalArgs go args scopes

def baseName (go : Go) (base : BaseName) (scopes : Scopes) : Write Unit := do
  match base with
  | .id id => go (.id id) scopes
  | .operator symbol args => do
    text "operator"
    operator go symbol scopes
    optionalArgs go args scopes
  | .destructorOf type => do
    text "~"
    typeRef go type scopes
  | .destructorNamed id => do
    text "~"
    go (.id id) scopes

def levels (go : Go) (ids : List SimpleId) (scopes : Scopes) : Write Unit :=
  list "" (fun id => do
    go (.id id) scopes
    text "::") ids

def unresolved (go : Go) (name : Unresolved) (scopes : Scopes) : Write Unit := do
  match name with
  | .simple isGlobal base => do
    if isGlobal then text "::"
    baseName go base scopes
  | .inType type ids base => do
    typeRef go type scopes
    text "::"
    levels go ids scopes
    baseName go base scopes
  | .inScopes isGlobal ids base => do
    if isGlobal then text "::"
    levels go ids scopes
    baseName go base scopes

end Symbolizer.Mangling.Itanium.Write
