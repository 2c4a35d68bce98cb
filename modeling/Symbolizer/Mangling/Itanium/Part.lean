import Symbolizer.Mangling.Itanium.Output
import Symbolizer.Mangling.Itanium.Vocabulary

/-!
The parts of names that writers ask one another for, and what the table tells about them: the
arguments at the end of a name, whether it has a return type, and what its constructors are called.
-/

namespace Symbolizer.Mangling.Itanium

inductive Part where
  | encoding (encoding : Encoding)
  | name (name : Name)
  | tagged (name : TaggedName)
  | entry (entry : Entry)
  | args (args : TemplateArgs)
  | arg (arg : TemplateArg)
  | pending (pending : Pending)
  | expression (expression : Expression)
  | unresolved (name : Unresolved)
  | id (id : SimpleId)

abbrev Go := Part → Scopes → Write Unit

def templateArgs? (table : Table) : Name → Option TemplateArgs
  | .template _ args => some args
  | .nestedTemplate _ _ whole =>
    match table.find? whole with
    | some (.scope (.template _ args)) => some args
    | _ => none
  | .inFunction _ name => templateArgs? table name
  | _ => none

/-- The arguments at the end of a type, through pointers and references. -/
def typeArgs? (table : Table) : Nat → TypeRef → Option TemplateArgs
  | 0, _ => none
  | fuel + 1, type =>
    match type with
    | .builtin _ => none
    | .link target =>
      match table.find? target with
      | some (.scope (.template _ args)) => some args
      | some (.type (.vendor _ args _)) => args
      | some (.type (.templateTemplate _ args)) => some args
      | some (.type (.pointer target)) => typeArgs? table fuel target
      | some (.type (.lvalueRef target)) => typeArgs? table fuel target
      | some (.type (.rvalueRef target)) => typeArgs? table fuel target
      | _ => none

def unqualifiedOf? (table : Table) (link : Link) : Option Unqualified :=
  match table.find? link with
  | some (.scope (.name name)) => some name.name
  | some (.scope (.nested _ name)) => some name.name
  | _ => none

/-- Constructors, destructors and conversions have no return type in their mangled form. -/
def lacksReturnType (table : Table) : Name → Bool
  | .nested _ _ _ name => name.name.isStructorOrConversion
  | .unscoped _ name => name.name.isStructorOrConversion
  | .nestedTemplate _ _ whole =>
    match table.find? whole with
    | some (.scope (.template template _)) =>
      (unqualifiedOf? table template).any Unqualified.isStructorOrConversion
    | _ => false
  | .inFunction _ name => lacksReturnType table name
  | _ => false

def parametersOf (table : Table) (name : Name) (types : List TypeRef) : List TypeRef :=
  if (templateArgs? table name).isSome && !lacksReturnType table name then types.drop 1 else types

def scopesOfName (table : Table) (name : Name) (scopes : Scopes) : Scopes :=
  match templateArgs? table name with
  | some args => .args args none :: scopes
  | none => scopes

def isLeaf : Unqualified → Bool
  | .source _ => true
  | .closure _ _ => true
  | .unnamed _ => true
  | _ => false

def leafOfName? (name : TaggedName) : Option Surrounding :=
  if isLeaf name.name then some (.className name.name) else none

/-- What constructors in a scope are called, or the scope that tells. The scopes in front of an
operator may have a name when the operator has none. -/
def leafStep (table : Table) (link : Link) : Option Surrounding × Option Link :=
  match link, table.find? link with
  | .standard .std, _ => (none, none)
  | .standard component, _ => (some (.standard component), none)
  | _, some (.scope (.name name)) => (leafOfName? name, none)
  | _, some (.scope (.nested outer name)) => (leafOfName? name, some outer)
  | _, some (.scope (.template template _)) => (none, some template)
  | _, some (.scope (.member _ name)) => (some (.className (.source name)), none)
  | _, some (.templateName _ name) => (leafOfName? name, none)
  | _, some (.type (.named _ (.nested _ _ outer name))) => (leafOfName? name, some outer)
  | _, some (.type (.named _ (.unscoped _ name))) => (leafOfName? name, none)
  | _, some (.type (.named _ (.nestedTemplate _ _ whole))) => (none, some whole)
  | _, some (.type (.named _ (.template template _))) => (none, some template)
  | _, _ => (none, none)

def leafOf? (table : Table) : Nat → Link → Option Surrounding
  | 0, _ => none
  | fuel + 1, link =>
    match leafStep table link with
    | (some leaf, _) => some leaf
    | (none, some next) => leafOf? table fuel next
    | (none, none) => none

namespace Write

def standard (component : Standard) : Write Unit :=
  text component.text

def link (go : Go) (target : Link) (scopes : Scopes) : Write Unit := do
  match target with
  | .standard component => standard component
  | target =>
    match ← entry target with
    | some entry => go (.entry entry) scopes
    | none => failure

def typeRef (go : Go) (type : TypeRef) (scopes : Scopes) : Write Unit :=
  match type with
  | .builtin name => text name
  | .link target => link go target scopes

end Write

end Symbolizer.Mangling.Itanium
