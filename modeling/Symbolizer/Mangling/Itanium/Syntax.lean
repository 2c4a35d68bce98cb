/-!
The syntax of Itanium mangled names. Types, prefixes and template names are not nested in one
another: they stand in a table of everything that later parts of a name can refer back to, and are
mentioned by their place in it.
-/

namespace Symbolizer.Mangling.Itanium

structure Qualifiers where
  isRestrict : Bool
  isVolatile : Bool
  isConst : Bool
  deriving DecidableEq, Repr

def Qualifiers.isEmpty (qualifiers : Qualifiers) : Bool :=
  !qualifiers.isRestrict && !qualifiers.isVolatile && !qualifiers.isConst

inductive RefQualifier where
  | lvalue
  | rvalue
  deriving DecidableEq, Repr

inductive Standard where
  | std
  | allocator
  | basicString
  | string
  | istream
  | ostream
  | iostream
  deriving DecidableEq, Repr

inductive Link where
  | standard (component : Standard)
  /-- An entry that can be referred back to. -/
  | entry (index : Nat)
  /-- The last component of a nested name, which cannot. -/
  | last (index : Nat)
  deriving DecidableEq, Repr

inductive TypeRef where
  | builtin (name : String)
  | link (link : Link)
  deriving DecidableEq, Repr

structure SimpleOperator where
  symbol : String
  arity : Nat
  /-- Operators that are words stand apart from the keyword in front of them. -/
  isWord : Bool
  deriving DecidableEq, Repr

inductive Operator where
  | simple (operator : SimpleOperator)
  | cast (type : TypeRef)
  | conversion (type : TypeRef)
  | literal (name : String)
  | vendor (arity : Nat) (name : String)
  deriving DecidableEq, Repr

def Operator.arity : Operator → Nat
  | .simple operator => operator.arity
  | .cast _ => 1
  | .conversion _ => 1
  | .literal _ => 1
  | .vendor arity _ => arity

inductive Unqualified where
  | operator (operator : Operator)
  /-- An inherited constructor says which type it comes from. -/
  | constructor (inherited : Option TypeRef)
  | destructor
  | source (name : String)
  | closure (parameters : List TypeRef) (number : Option Nat)
  | unnamed (number : Option Nat)
  deriving DecidableEq, Repr

def Unqualified.isStructorOrConversion : Unqualified → Bool
  | .constructor _ => true
  | .destructor => true
  | .operator (.conversion _) => true
  | _ => false

structure TaggedName where
  name : Unqualified
  tags : List String
  deriving DecidableEq, Repr

inductive CallOffset where
  | fixed (offset : Int)
  | virtual (offset virtualOffset : Int)
  deriving DecidableEq, Repr

structure CloneSuffix where
  word : String
  numbers : List Nat
  deriving DecidableEq, Repr

inductive TypeObject where
  | vtable
  | vtt
  | typeinfo
  | typeinfoName
  | typeinfoFunction
  deriving DecidableEq, Repr

inductive VariableObject where
  | guard
  | threadLocalInit
  | threadLocalWrapper
  | temporary (number : Nat)
  deriving DecidableEq, Repr

inductive CloneKind where
  | transaction
  | nonTransaction
  deriving DecidableEq, Repr

mutual

inductive Encoding where
  /-- Types are those of the parameters, behind the return type where one is mangled. -/
  | function (name : Name) (types : List TypeRef)
  | data (name : Name)
  | typeObject (kind : TypeObject) (type : TypeRef)
  | variableObject (kind : VariableObject) (name : Name)
  | thunk (offsets : List CallOffset) (target : Encoding)
  | constructionVtable (type base : TypeRef)
  | clone (kind : CloneKind) (target : Encoding)
  | resource (name : String)

inductive Name where
  | nested (qualifiers : Qualifiers) (reference : Option RefQualifier) (scope : Link)
      (name : TaggedName)
  | nestedTemplate (qualifiers : Qualifiers) (reference : Option RefQualifier) (whole : Link)
  | unscoped (isStd : Bool) (name : TaggedName)
  | template (name : Link) (args : TemplateArgs)
  | inFunction (function : Encoding) (name : Name)
  | literalIn (function : Encoding)

/-- Template arguments, told apart by where they were read. -/
inductive TemplateArgs where
  | mk (place : Nat) (args : List TemplateArg)

inductive TemplateArg where
  | type (type : TypeRef)
  | expression (expression : Expression)
  | pack (args : List TemplateArg)

inductive Expression where
  | unary (operator : Operator) (operand : Expression)
  | binary (operator : Operator) (left right : Expression)
  | ternary (operator : Operator) (first second third : Expression)
  | step (symbol : String) (operand : Expression)
  | call (function : Expression) (args : List Expression)
  | convert (type : TypeRef) (operands : List Expression)
  | braced (type : Option TypeRef) (elements : List Expression)
  | new (keyword : String) (placement : List Expression) (type : TypeRef)
      (init : Option (List Expression))
  | prefixed (keyword : String) (operand : Expression)
  | castTo (keyword : String) (type : TypeRef) (operand : Expression)
  | ofType (keyword : String) (type : TypeRef)
  | ofExpression (keyword : String) (operand : Expression)
  | templateParam (index : Nat)
  /-- A parameter of the function; without a number the object itself. -/
  | functionParam (number : Option Nat)
  | member (connector : String) (object : Expression) (name : Name)
  | unresolvedMember (connector : String) (object : Expression) (name : Unresolved)
  | memberPointer (object pointer : Expression)
  | packSize (operand : Expression)
  | capturedPackSize (args : List TemplateArg)
  | packExpansion (operand : Expression)
  | subobject (type : TypeRef) (object : Expression) (offset : Int)
  | rethrow
  | unresolved (name : Unresolved)
  | literal (type : TypeRef) (text : List Char)
  | external (encoding : Encoding) (suffixes : List CloneSuffix)

inductive Unresolved where
  | simple (isGlobal : Bool) (base : BaseName)
  | inType (type : TypeRef) (levels : List SimpleId) (base : BaseName)
  | inScopes (isGlobal : Bool) (levels : List SimpleId) (base : BaseName)

inductive SimpleId where
  | mk (name : String) (args : Option TemplateArgs)

inductive BaseName where
  | id (id : SimpleId)
  | operator (operator : Operator) (args : Option TemplateArgs)
  | destructorOf (type : TypeRef)
  | destructorNamed (id : SimpleId)

end

def TemplateArgs.place : TemplateArgs → Nat
  | .mk place _ => place

def TemplateArgs.args : TemplateArgs → List TemplateArg
  | .mk _ args => args

inductive Dimension where
  | none
  | number (n : Nat)
  | expression (expression : Expression)

inductive ExceptionSpec where
  | noexcept
  | computed (condition : Expression)
  | listed (types : List TypeRef)

structure FunctionType where
  qualifiers : Qualifiers
  exceptions : Option ExceptionSpec
  /-- The return type, then the parameters. -/
  types : List TypeRef
  reference : Option RefQualifier

inductive CType where
  | function (type : FunctionType)
  /-- A class or an enumeration; the keyword is empty unless it was spelled out. -/
  | named (keyword : String) (name : Name)
  | array (dimension : Dimension) (element : TypeRef)
  | vector (dimension : Dimension) (element : TypeRef)
  | pointerToMember (scope member : TypeRef)
  | templateParam (index : Nat)
  | templateTemplate (template : Link) (args : TemplateArgs)
  | decltype (expression : Expression)
  | qualified (qualifiers : Qualifiers) (type : TypeRef)
  | pointer (target : TypeRef)
  | lvalueRef (target : TypeRef)
  | rvalueRef (target : TypeRef)
  | complex (part : TypeRef)
  | imaginary (part : TypeRef)
  | vendor (name : String) (args : Option TemplateArgs) (type : TypeRef)
  | packExpansion (pattern : TypeRef)

inductive Scope where
  | name (name : TaggedName)
  | nested (outer : Link) (name : TaggedName)
  | template (template : Link) (args : TemplateArgs)
  | templateParam (index : Nat)
  | decltype (expression : Expression)
  | member (outer : Link) (name : String)

inductive Entry where
  | type (type : CType)
  | scope (scope : Scope)
  | templateName (isStd : Bool) (name : TaggedName)
  | templateParam (index : Nat)
  | unresolvedTemplate (index : Nat) (args : Option TemplateArgs)
  | unresolvedDecltype (expression : Expression)

/-- Everything that a name can refer back to, and the last components of its nested names. -/
structure Table where
  entries : List Entry
  lasts : List Entry

namespace Table

def empty : Table := ⟨[], []⟩

def size (table : Table) : Nat :=
  table.entries.length + table.lasts.length

def find? (table : Table) : Link → Option Entry
  | .standard _ => none
  | .entry index => table.entries[index]?
  | .last index => table.lasts[index]?

end Table

structure Mangled where
  encoding : Encoding
  suffixes : List CloneSuffix

end Symbolizer.Mangling.Itanium
