import Symbolizer.Mangling.Itanium.NamePrinter

/-!
Writing functions, variables, and what compilers make for types and variables.
-/

namespace Symbolizer.Mangling.Itanium.Write

def returnType (go : Go) (name : Name) (types : List TypeRef) (scopes : Scopes) : Write Unit := do
  let table ← read
  if (templateArgs? table name).isSome && !lacksReturnType table name then
    match types with
    | [] => return
    | type :: _ => do
      typeRef go type scopes
      text " "

def function (go : Go) (name : Name) (types : List TypeRef) (scopes : Scopes) : Write Unit := do
  let scopes := scopesOfName (← read) name scopes
  returnType go name types scopes
  let number ← push (.encoding name types)
  go (.name name) scopes
  if ← take number then go (.pending (.encoding name types)) scopes

def signedText (n : Int) : String :=
  Text.decimalInt n

def callOffset : CallOffset → Write Unit
  | .fixed offset => text ("\x7boffset(" ++ signedText offset ++ ")\x7d")
  | .virtual offset virtualOffset =>
    text ("\x7bvirtual offset(" ++ signedText offset ++ ", " ++ signedText virtualOffset ++ ")\x7d")

def typeObject (go : Go) (kind : TypeObject) (type : TypeRef) (scopes : Scopes) : Write Unit := do
  let (before, behind) := match kind with
    | .vtable => ("\x7bvtable(", ")\x7d")
    | .vtt => ("\x7bvtt(", ")\x7d")
    | .typeinfo => ("typeinfo for ", "")
    | .typeinfoName => ("typeinfo name for ", "")
    | .typeinfoFunction => ("typeinfo fn for ", "")
  text before
  typeRef go type scopes
  text behind

def variableObject (kind : VariableObject) : Write Unit :=
  text (match kind with
    | .guard => "guard variable for "
    | .threadLocalInit => "TLS init function for "
    | .threadLocalWrapper => "TLS wrapper function for "
    | .temporary number => "reference temporary #" ++ Text.decimal number ++ " for ")

def cloneKind : CloneKind → Write Unit
  | .transaction => text "transaction clone for "
  | .nonTransaction => text "non-transaction clone for "

def encoding (go : Go) (encoding : Encoding) (scopes : Scopes) : Write Unit :=
  apart do
    match encoding with
    | .function name types => function go name types scopes
    | .data name => go (.name name) scopes
    | .typeObject kind type => typeObject go kind type scopes
    | .variableObject kind name => do
      variableObject kind
      go (.name name) scopes
    | .thunk offsets target => do
      text "\x7bvirtual override thunk("
      list ", " callOffset offsets
      text ", "
      go (.encoding target) scopes
      text ")\x7d"
    | .constructionVtable type base => do
      text "construction vtable for "
      typeRef go type scopes
      text "-in-"
      typeRef go base scopes
    | .clone kind target => do
      cloneKind kind
      go (.encoding target) scopes
    | .resource name => text ("java resource " ++ name)

def cloneSuffix (suffix : CloneSuffix) : Write Unit := do
  text (" [clone ." ++ suffix.word)
  list "" (fun n => text ("." ++ Text.decimal n)) suffix.numbers
  text "]"

def mangled (go : Go) (target : Encoding) (suffixes : List CloneSuffix) (scopes : Scopes) :
    Write Unit := do
  go (.encoding target) scopes
  list "" cloneSuffix suffixes

end Symbolizer.Mangling.Itanium.Write
