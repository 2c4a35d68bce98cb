import Symbolizer.Mangling.Itanium.Syntax
import Symbolizer.Text.Numeral

/-!
Writing Itanium names. Declarators wrap around the types they are made from, so a type that is being
written keeps a stack of the declarators around it, which the innermost part consumes. Template
parameters are looked up in the argument lists around a place, constructors in the nearest class
name.
-/

namespace Symbolizer.Mangling.Itanium

inductive Pending where
  /-- The parameters of the named function. -/
  | encoding (name : Name) (types : List TypeRef)
  | function (type : FunctionType)
  /-- The parameters of a function type, behind its return type. -/
  | parameters (types : List TypeRef)
  | type (type : CType)

structure State where
  written : String
  lastChar : Option Char
  /-- The name that was written last. -/
  lastSource : Option String
  /-- Innermost first, each with a number of its own. -/
  pending : List (Nat × Pending)
  nextNumber : Nat
  inClosure : Bool
  sawPack : Bool

/-- What surrounds a place: the arguments of a template, of which one may be under way, or the name
of a class. -/
inductive Surrounding where
  | args (args : TemplateArgs) (current : Option Nat)
  | className (name : Unqualified)
  | standard (component : Standard)

abbrev Scopes := List Surrounding

namespace Scopes

/-- An argument may mention only arguments in front of it. -/
def arg? : Scopes → Nat → Option TemplateArg
  | [], _ => none
  | .args args current :: outer, index =>
    match args.args[index]? with
    | some arg => if current.any (· ≤ index) then none else some arg
    | none => arg? outer index
  | _ :: outer, index => arg? outer index

def className? (scopes : Scopes) : Option Surrounding :=
  scopes.find? fun
    | .args _ _ => false
    | _ => true

/-- Marks an argument as under way when its list is the nearest thing around. -/
def entering (place index : Nat) : Scopes → Scopes
  | .args args _ :: outer =>
    .args args (if args.place = place then some index else none) :: outer
  | scopes => scopes

end Scopes

/-- Failure means that the name has no readable form. -/
abbrev Write := ReaderT Table (StateT State Option)

namespace Write

def text (piece : String) : Write Unit := do
  if piece.isEmpty then return
  modify fun state =>
    { state with written := state.written ++ piece, lastChar := piece.toList.getLast? }

def space : Write Unit := do
  if (← get).lastChar ≠ some ' ' then text " "

def nat (n : Nat) : Write Unit :=
  text (Text.decimal n)

def list (separator : String) (element : α → Write Unit) : List α → Write Unit
  | [] => return
  | [a] => element a
  | a :: rest => do
    element a
    text separator
    list separator element rest

def push (pending : Pending) : Write Nat := do
  let state ← get
  set { state with
    pending := (state.nextNumber, pending) :: state.pending
    nextNumber := state.nextNumber + 1 }
  return state.nextNumber

def pop? : Write (Option Pending) := do
  let state ← get
  match state.pending with
  | [] => return none
  | (_, pending) :: rest => do
    set { state with pending := rest }
    return some pending

/-- Whether the declarator of a number was still innermost, in which case it is taken away. -/
def take (number : Nat) : Write Bool := do
  let state ← get
  match state.pending with
  | (top, _) :: rest =>
    if top = number then
      set { state with pending := rest }
      return true
    else return false
  | [] => return false

def apart (write : Write Unit) : Write Unit := do
  let pending := (← get).pending
  modify fun state => { state with pending := [] }
  write
  modify fun state => { state with pending }

def entry (link : Link) : Write (Option Entry) := do
  return (← read).find? link

end Write

end Symbolizer.Mangling.Itanium
