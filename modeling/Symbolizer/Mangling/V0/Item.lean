import Symbolizer.Mangling.V0.Output
import Symbolizer.Text.Utf8

/-!
The items of a v0 symbol: paths, types, constant values and patterns. Every item is written from the
current place of the reader on. Hashes and the types of plain numbers are left out.
-/

namespace Symbolizer.Mangling.V0

inductive Item where
  | path (inValue : Bool)
  | type
  | const (inValue : Bool)
  | pattern
  /-- A path whose angle brackets stay open for what a trait object binds. -/
  | traitPath

def basicType? : Char → Option String
  | 'a' => some "i8"
  | 'b' => some "bool"
  | 'c' => some "char"
  | 'd' => some "f64"
  | 'e' => some "str"
  | 'f' => some "f32"
  | 'h' => some "u8"
  | 'i' => some "isize"
  | 'j' => some "usize"
  | 'l' => some "i32"
  | 'm' => some "u32"
  | 'n' => some "i128"
  | 'o' => some "u128"
  | 'p' => some "_"
  | 's' => some "i16"
  | 't' => some "u16"
  | 'u' => some "()"
  | 'v' => some "..."
  | 'x' => some "i64"
  | 'y' => some "u64"
  | 'z' => some "!"
  | _ => none

abbrev Go := Item → Write Unit

namespace Write

def identifier (name : Identifier) : Write Unit :=
  chars name.readable

def special (mark : Char) (name : Identifier) (disambiguator : Nat) : Write Unit := do
  text "::\x7b"
  match mark with
  | 'C' => text "closure"
  | 'S' => text "shim"
  | other => text other.toString
  if !name.isEmpty then
    text ":"
    identifier name
  text "#"
  nat disambiguator
  text "\x7d"

def genericArgument (go : Go) : Write Unit := do
  if ← eat 'L' then reading Read.integer62 lifetime
  else if ← eat 'K' then go (.const false)
  else go .type

def nestedPath (go : Go) (inValue : Bool) (mark : Option Char) (next : Write Unit) : Write Unit := do
  go (.path inValue)
  if ← hasFailed then text "::"
  reading Read.disambiguator fun disambiguator =>
    reading Read.identifier fun name => do
      match mark with
      | some mark => special mark name disambiguator
      | none =>
        if !name.isEmpty then
          text "::"
          identifier name
      next

def implementation (go : Go) (hasTrait : Bool) : Write Unit := do
  text "<"
  go .type
  if hasTrait then
    text " as "
    go (.path false)
  text ">"

def path (symbol : List Char) (go : Go) (inValue : Bool) : Write Unit :=
  reading Read.enter fun _ => reading Read.next fun tag =>
    match tag with
    | 'C' =>
      reading Read.disambiguator fun _ => reading Read.identifier fun name => do
        identifier name
        leave
    | 'N' => reading Read.nameSpace fun mark => nestedPath go inValue mark leave
    | 'M' =>
      reading Read.disambiguator fun _ => do
        silently (go (.path false))
        implementation go false
        leave
    | 'X' =>
      reading Read.disambiguator fun _ => do
        silently (go (.path false))
        implementation go true
        leave
    | 'Y' => do
      implementation go true
      leave
    | 'I' => do
      go (.path inValue)
      if inValue then text "::"
      text "<"
      let _ ← list ", " (genericArgument go)
      text ">"
      leave
    | 'B' => do
      backReference symbol (go (.path inValue))
      leave
    | _ => invalid

def reference (go : Go) (isMutable : Bool) : Write Unit := do
  text "&"
  let rest : Write Unit := do
    if isMutable then text "mut "
    go .type
    leave
  if ← eat 'L' then
    reading Read.integer62 fun index => do
      if index ≠ 0 then
        lifetime index
        text " "
      rest
  else rest

def tuple (element : Write Unit) : Write Unit := do
  text "("
  let count ← list ", " element
  if count = 1 then text ","
  text ")"

def argument (go : Go) : Write Unit := do
  if ← eat 'w' then text "#[splat] "
  go .type

def signature (go : Go) (isUnsafe : Bool) (abi : Option (List Char)) : Write Unit := do
  if isUnsafe then text "unsafe "
  match abi with
  | some abi => do
    text "extern \""
    text (String.ofList (abi.map fun c => if c = '_' then '-' else c))
    text "\" "
  | none => pure ()
  text "fn("
  let _ ← list ", " (argument go)
  text ")"
  if !(← eat 'u') then
    text " -> "
    go .type

def functionType (go : Go) : Write Unit := do
  let isUnsafe ← eat 'U'
  if ← eat 'K' then
    if ← eat 'C' then signature go isUnsafe (some ['C'])
    else
      reading Read.identifier fun abi =>
        if abi.ascii.isEmpty || !abi.punycode.isEmpty then invalid
        else signature go isUnsafe (some abi.ascii)
  else signature go isUnsafe none

/-- Bindings of associated types, in the angle brackets that the path left open or in new ones. -/
def bindings (go : Go) : Nat → Bool → Write Unit
  | 0, _ => return
  | fuel + 1, isOpen => do
    if ← eat 'p' then
      text (if isOpen then ", " else "<")
      reading Read.identifier fun name => do
        identifier name
        text " = "
        go .type
        bindings go fuel true
    else if isOpen then text ">"

def leaveOpen (isOpen : Bool) : Write Unit :=
  modify fun state => { state with bracketsOpen := isOpen }

def traitPath (symbol : List Char) (go : Go) : Write Unit := do
  if ← eat 'B' then
    leaveOpen false
    backReference symbol (go .traitPath)
  else if ← eat 'I' then
    go (.path false)
    text "<"
    let _ ← list ", " (genericArgument go)
    leaveOpen true
  else
    go (.path false)
    leaveOpen false

def charsLeft : Write Nat := do
  match (← get).place with
  | .error _ => return 0
  | .ok place => return place.rest.length

def boundTrait (go : Go) : Write Unit := do
  go .traitPath
  bindings go ((← charsLeft) + 1) (← get).bracketsOpen

def traitObject (go : Go) : Write Unit := do
  text "dyn "
  underBinder do
    let _ ← list " + " (boundTrait go)
  if ← eat 'L' then
    reading Read.integer62 fun index => do
      if index ≠ 0 then
        text " + "
        lifetime index
      leave
  else invalid

def stepBack (tag : Char) : Write Unit :=
  modify fun state =>
    { state with place := state.place.map fun place =>
        { place with position := place.position - 1, rest := tag :: place.rest } }

def pointer (go : Go) (qualifier : String) : Write Unit := do
  text ("*" ++ qualifier ++ " ")
  go .type
  leave

def compoundType (symbol : List Char) (go : Go) (tag : Char) : Write Unit :=
  match tag with
  | 'R' => reference go false
  | 'Q' => reference go true
  | 'P' => pointer go "const"
  | 'O' => pointer go "mut"
  | 'A' => do
    text "["
    go .type
    text "; "
    go (.const true)
    text "]"
    leave
  | 'S' => do
    text "["
    go .type
    text "]"
    leave
  | 'T' => do
    tuple (go .type)
    leave
  | 'F' => do
    underBinder (functionType go)
    leave
  | 'D' => traitObject go
  | 'B' => do
    backReference symbol (go .type)
    leave
  | 'W' => do
    go .type
    text " is "
    go .pattern
    leave
  | tag => do
    stepBack tag
    go (.path false)
    leave

def type (symbol : List Char) (go : Go) : Write Unit :=
  reading Read.next fun tag =>
    match basicType? tag with
    | some name => text name
    | none => reading Read.enter fun _ => compoundType symbol go tag

def pattern (go : Go) : Write Unit :=
  reading Read.next fun tag =>
    match tag with
    | 'R' => do
      go (.const false)
      text "..="
      go (.const false)
    | 'O' =>
      reading Read.enter fun _ => do
        let _ ← list " | " (go .pattern)
        leave
    | 'N' => text "!null"
    | _ => invalid

def word? (digits : List Char) : Option Nat :=
  match Text.readDigits 16 64 0 digits with
  | .ok n => some n
  | .error _ => none

/-- A number that does not fit is shown with its own digits. -/
def unsignedLiteral : Write Unit :=
  reading Read.nibbles fun digits =>
    match word? digits with
    | some n => nat n
    | none => text ("0x" ++ String.ofList digits)

def bytesOf : List Char → Option (List UInt8)
  | [] => some []
  | [_] => none
  | high :: low :: rest => do
    let high ← Text.digitIn 16 high
    let low ← Text.digitIn 16 low
    return UInt8.ofNat (high * 16 + low) :: (← bytesOf rest)

def stringLiteral : Write Unit :=
  reading Read.nibbles fun digits =>
    match (bytesOf digits).bind Text.Utf8.toText? with
    | some literal => chars (Text.quoted '\x22' literal.toList)
    | none => invalid

def character? (digits : List Char) : Option Char :=
  match word? digits with
  | some n => if h : n.isValidChar then if n < 0x10ffff then some (Char.ofNatAux n h) else none else none
  | none => none

def openBrace (inValue : Bool) : Write Unit := do
  if !inValue then text "\x7b"

def closeBrace (inValue : Bool) : Write Unit := do
  if !inValue then text "\x7d"
  leave

def field (go : Go) : Write Unit :=
  reading Read.disambiguator fun _ => reading Read.identifier fun name => do
    identifier name
    text ": "
    go (.const true)

def constructorFields (go : Go) (tag : Char) (next : Write Unit) : Write Unit :=
  match tag with
  | 'U' => next
  | 'T' => do
    text "("
    let _ ← list ", " (go (.const true))
    text ")"
    next
  | 'S' => do
    text " \x7b "
    let _ ← list ", " (field go)
    text " \x7d"
    next
  | _ => invalid

def referenceConst (go : Go) (inValue isMutable : Bool) : Write Unit := do
  openBrace inValue
  text (if isMutable then "&mut " else "&")
  go (.const true)
  closeBrace inValue

/-- Values that are no plain literals stand in braces, unless they are part of another value. -/
def compoundConst (symbol : List Char) (go : Go) (inValue : Bool) (tag : Char) : Write Unit :=
  match tag with
  | 'e' => do
    openBrace inValue
    text "*"
    stringLiteral
    closeBrace inValue
  | 'R' => do
    if ← eat 'e' then
      stringLiteral
      leave
    else referenceConst go inValue false
  | 'Q' => referenceConst go inValue true
  | 'A' => do
    openBrace inValue
    text "["
    let _ ← list ", " (go (.const true))
    text "]"
    closeBrace inValue
  | 'T' => do
    openBrace inValue
    tuple (go (.const true))
    closeBrace inValue
  | 'V' => do
    openBrace inValue
    go (.path true)
    reading Read.next fun tag => constructorFields go tag (closeBrace inValue)
  | 'B' => do
    backReference symbol (go (.const inValue))
    leave
  | _ => invalid

def isUnsignedTag (tag : Char) : Bool :=
  "htmyoj".toList.contains tag

def isSignedTag (tag : Char) : Bool :=
  "aslxni".toList.contains tag

def const (symbol : List Char) (go : Go) (inValue : Bool) : Write Unit :=
  reading Read.next fun tag => reading Read.enter fun _ =>
    if isUnsignedTag tag then do
      unsignedLiteral
      leave
    else if isSignedTag tag then do
      if ← eat 'n' then text "-"
      unsignedLiteral
      leave
    else
      match tag with
      | 'p' => do
        text "_"
        leave
      | 'b' =>
        reading Read.nibbles fun digits =>
          match word? digits with
          | some 0 => do
            text "false"
            leave
          | some 1 => do
            text "true"
            leave
          | _ => invalid
      | 'c' =>
        reading Read.nibbles fun digits =>
          match character? digits with
          | some c => do
            chars (Text.quoted '\x27' [c])
            leave
          | none => invalid
      | tag => compoundConst symbol go inValue tag

def item (symbol : List Char) (go : Go) : Item → Write Unit
  | .path inValue => path symbol go inValue
  | .type => type symbol go
  | .const inValue => const symbol go inValue
  | .pattern => pattern go
  | .traitPath => traitPath symbol go

/-- Every nested item enters one level, so the depth limit bounds the nesting. -/
def within (symbol : List Char) : Nat → Item → Write Unit
  | 0, _ => return
  | levels + 1, target => item symbol (within symbol levels) target

/-- Room for every level that the reader admits, with a trait path or a pattern between two. -/
def maxLevels : Nat := 3 * (maxDepth + 2)

def top (symbol : List Char) (inValue : Bool) : Write Unit :=
  within symbol maxLevels (.path inValue)

end Write

def check (symbol : List Char) (place : Place) : Except Fault Place :=
  ((Write.top symbol false).run.run ⟨.ok place, true, "", maxSize, 0, false⟩).2.place

def isUpper (c : Char) : Bool :=
  'A' ≤ c && c ≤ 'Z'

def behindPaths (symbol : List Char) : Except Fault Place := do
  let place ← check symbol ⟨0, symbol, 0⟩
  if place.rest.head?.any isUpper then check symbol place else return place

def sizeLimitMessage : String := "\x7bsize limit reached\x7d"

def render (symbol : List Char) : String :=
  match (Write.top symbol true).run.run ⟨.ok ⟨0, symbol, 0⟩, false, "", maxSize, 0, false⟩ with
  | (.ok _, state) => state.written
  | (.error _, state) => state.written ++ sizeLimitMessage

/-- The readable path and the suffix of a name. Paths start with an upper-case letter. -/
def demangle? (name : List Char) : Option (String × List Char) :=
  match name with
  | '_' :: 'R' :: symbol =>
    if !symbol.head?.any isUpper || symbol.any (fun c => 0x80 ≤ c.toNat) then none
    else
      match behindPaths symbol with
      | .ok place => some (render symbol, place.rest)
      | .error _ => none
  | _ => none

end Symbolizer.Mangling.V0
