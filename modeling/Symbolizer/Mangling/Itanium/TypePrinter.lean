import Symbolizer.Mangling.Itanium.NamePrinter

/-!
Writing types. A declarator waits until the type inside it is written; parameters and array bounds
consume the declarators in front of them, in parentheses where they bind tighter.
-/

namespace Symbolizer.Mangling.Itanium.Write

/-! Declarators. -/

def around (go : Go) (declarator : CType) (inner : TypeRef) (scopes : Scopes) : Write Unit := do
  let number ← push (.type declarator)
  typeRef go inner scopes
  if ← take number then go (.pending (.type declarator)) scopes

/-- Whether a declarator wants parentheses around it in front of parameters, and a space. -/
def parentheses? : Pending → Option Bool
  | .type (.qualified _ _) => some true
  | .type (.complex _) => some true
  | .type (.imaginary _) => some true
  | .type (.pointerToMember _ _) => some true
  | .type (.pointer _) => some false
  | .type (.lvalueRef _) => some false
  | .type (.rvalueRef _) => some false
  | _ => none

def hasTrailer : Pending → Bool
  | .function type => !type.qualifiers.isEmpty || type.reference.isSome || type.exceptions.isSome
  | _ => false

/-- Writes the declarators that stand in front of parameters and gives back those that do not. -/
def frontDeclarators (go : Go) (scopes : Scopes) : Nat → Write (List (Nat × Pending))
  | 0 => return []
  | fuel + 1 => do
    let state ← get
    match state.pending with
    | [] => return []
    | (number, pending) :: rest => do
      set { state with pending := rest }
      if hasTrailer pending then
        return (number, pending) :: (← frontDeclarators go scopes fuel)
      go (.pending pending) scopes
      frontDeclarators go scopes fuel

def restDeclarators (go : Go) (scopes : Scopes) : Nat → Write Unit
  | 0 => return
  | fuel + 1 => do
    match ← pop? with
    | none => return
    | some pending => do
      go (.pending pending) scopes
      restDeclarators go scopes fuel

def pendingCount : Write Nat := do
  return (← get).pending.length

def parameters (go : Go) (types : List TypeRef) (scopes : Scopes) : Write Unit := do
  let state ← get
  let wanted := state.pending.findSome? fun (_, pending) => parentheses? pending
  if let some wantsSpace := wanted then
    if wantsSpace || !(state.lastChar = some '(' || state.lastChar = some '*') then space
    text "("
  let kept ← frontDeclarators go scopes (state.pending.length + 1)
  modify fun state => { state with pending := kept }
  if wanted.isSome then text ")"
  text "("
  match types with
  | [.builtin "void"] => pure ()
  | types => list ", " (fun type => typeRef go type scopes) types
  text ")"
  restDeclarators go scopes ((← pendingCount) + 1)

def exceptionSpec (go : Go) (spec : ExceptionSpec) (scopes : Scopes) : Write Unit := do
  space
  match spec with
  | .noexcept => text "noexcept"
  | .computed condition => do
    text "noexcept("
    go (.expression condition) scopes
    text ")"
  | .listed types => do
    text "throw("
    list ", " (fun type => typeRef go type scopes) types
    text ")"

def functionTrailer (go : Go) (type : FunctionType) (scopes : Scopes) : Write Unit := do
  qualifiers type.qualifiers
  refQualifier type.reference
  if let some spec := type.exceptions then exceptionSpec go spec scopes

def functionType (go : Go) (type : FunctionType) (scopes : Scopes) : Write Unit := do
  match type.types with
  | [] => failure
  | result :: types => do
    let outer ← push (.function type)
    let inner ← push (.parameters types)
    typeRef go result scopes
    if ← take inner then
      space
      go (.pending (.parameters types)) scopes
    if ← take outer then go (.pending (.function type)) scopes

/-- References to references collapse: the innermost declarator swallows those next to it. -/
def collapse : Nat → Bool → Write Bool
  | 0, _ => return true
  | fuel + 1, isLvalue => do
    let state ← get
    match state.pending with
    | (_, .type (.rvalueRef _)) :: rest => do
      set { state with pending := rest }
      collapse fuel isLvalue
    | (_, .type (.lvalueRef _)) :: rest =>
      if isLvalue then
        set { state with pending := rest }
        collapse fuel isLvalue
      else return false
    | _ => return true

def isArrayRef (table : Table) : TypeRef → Bool
  | .link target =>
    match table.find? target with
    | some (.type (.array _ _)) => true
    | _ => false
  | .builtin _ => false

/-- The declarators around an array, in parentheses unless they are arrays themselves. Tells whether
a space belongs in front of the brackets. -/
def aroundArray (go : Go) (scopes : Scopes) : Nat → Bool → Write Bool
  | 0, needsSpace => return needsSpace
  | fuel + 1, needsSpace => do
    match ← pop? with
    | none => return needsSpace
    | some (.type (.array dimension element)) => do
      go (.pending (.type (.array dimension element))) scopes
      aroundArray go scopes fuel false
    | some (.type (.qualified marks type)) => do
      if isArrayRef (← read) type then qualifiers marks
      else
        space
        qualifiers marks
        space
        text "("
        restDeclarators go scopes ((← pendingCount) + 1)
        text ")"
      aroundArray go scopes fuel needsSpace
    | some pending => do
      space
      text "("
      go (.pending pending) scopes
      restDeclarators go scopes ((← pendingCount) + 1)
      text ")"
      aroundArray go scopes fuel needsSpace

def dimension (go : Go) (dimension : Dimension) (scopes : Scopes) : Write Unit :=
  match dimension with
  | .none => return
  | .number n => nat n
  | .expression expression => go (.expression expression) scopes

def arrayBrackets (go : Go) (size : Dimension) (scopes : Scopes) : Write Unit := do
  if ← aroundArray go scopes ((← pendingCount) + 1) true then space
  text "["
  dimension go size scopes
  text "]"

def reference (isLvalue : Bool) : Write Unit := do
  if ← collapse ((← pendingCount) + 1) isLvalue then text (if isLvalue then "&" else "&&")

def typeDeclarator (go : Go) (type : CType) (scopes : Scopes) : Write Unit := do
  match type with
  | .qualified marks _ => qualifiers marks
  | .pointer _ => text "*"
  | .lvalueRef _ => reference true
  | .rvalueRef _ => reference false
  | .array size _ => arrayBrackets go size scopes
  | .vector size _ => do
    text " __vector("
    dimension go size scopes
    text ")"
  | .pointerToMember scope _ => do
    if (← get).lastChar ≠ some '(' then text " "
    typeRef go scope scopes
    text "::*"
  | _ => failure

def pending (go : Go) (pending : Pending) (scopes : Scopes) : Write Unit := do
  match pending with
  | .encoding name types => do
    let table ← read
    parameters go (parametersOf table name types) (scopesOfName table name scopes)
  | .function type => functionTrailer go type scopes
  | .parameters types => parameters go types scopes
  | .type type => typeDeclarator go type scopes

/-! Types. -/

def templateParam (go : Go) (index : Nat) (scopes : Scopes) : Write Unit := do
  if (← get).inClosure then text ("auto:" ++ Text.decimal (index + 1))
  else
    match scopes.arg? index with
    | some arg => go (.arg arg) scopes
    | none => failure

def decltype (go : Go) (expression : Expression) (scopes : Scopes) : Write Unit := do
  text "decltype ("
  go (.expression expression) scopes
  text ")"

def optionalArgs (go : Go) (args : Option TemplateArgs) (scopes : Scopes) : Write Unit :=
  match args with
  | some args => go (.args args) scopes
  | none => return

def ctype (go : Go) (type : CType) (scopes : Scopes) : Write Unit := do
  match type with
  | .function signature => functionType go signature scopes
  | .named keyword name => do
    text keyword
    go (.name name) scopes
  | .templateParam index => templateParam go index scopes
  | .templateTemplate template args => templated go template args scopes
  | .decltype expression => decltype go expression scopes
  | .array _ element => around go type element scopes
  | .vector _ element => around go type element scopes
  | .pointerToMember _ member => around go type member scopes
  | .qualified _ inner => around go type inner scopes
  | .pointer target => around go type target scopes
  | .lvalueRef target => around go type target scopes
  | .rvalueRef target => around go type target scopes
  | .complex part => do
    typeRef go part scopes
    text " complex"
  | .imaginary part => do
    typeRef go part scopes
    text " imaginary"
  | .vendor name args inner => do
    typeRef go inner scopes
    text " "
    source name
    optionalArgs go args scopes
  | .packExpansion pattern => do
    typeRef go pattern scopes
    if !(← get).sawPack then text "..."

def entryOf (go : Go) (entry : Entry) (scopes : Scopes) : Write Unit :=
  match entry with
  | .type type => ctype go type scopes
  | .scope part => scope go part scopes
  | .templateName isStd name => unscoped go isStd name scopes
  | .templateParam index => templateParam go index scopes
  | .unresolvedTemplate index args => do
    templateParam go index scopes
    optionalArgs go args scopes
  | .unresolvedDecltype expression => decltype go expression scopes

end Symbolizer.Mangling.Itanium.Write
