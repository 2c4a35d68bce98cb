import Symbolizer.Mangling.Itanium.Grammar

/-!
Fragments of Itanium names that mention no other production. They take the number of levels below
the part they stand in.
-/

namespace Symbolizer.Mangling.Itanium.Grammar

open Read

def qualifiers (levels : Nat) : Read Qualifiers := do
  let _ ← descend levels
  let isRestrict ← has "r"
  let isVolatile ← has "V"
  let isConst ← has "K"
  return ⟨isRestrict, isVolatile, isConst⟩

def refQualifier? (levels : Nat) : Read (Option RefQualifier) := do
  let _ ← descend levels
  if ← has "R" then return some .lvalue
  if ← has "O" then return some .rvalue
  return none

def discriminator (levels : Nat) : Read Unit := do
  let _ ← descend levels
  eat "_"
  if ← has "_" then
    if (← decimal) < 10 then fail
    eat "_"
  else
    match ← peek? with
    | some c => if '0' ≤ c ∧ c ≤ '9' then eat c.toString else fail
    | none => fail

def templateParam (levels : Nat) : Read Nat := do
  let _ ← descend levels
  eat "T"
  let index ← attempt? decimal
  eat "_"
  return match index with
    | some n => n + 1
    | none => 0

/-- Either an abbreviation or a number in base 36; the number must have been met. -/
def substitution (levels : Nat) : Read Link := do
  let _ ← descend (← descend levels)
  orElse (Link.standard <$> word standards) do
    eat "S"
    let index := match ← attempt? (number 36) with
      | some n => n + 1
      | none => 0
    if (← getThe Memory).table.entries.length ≤ index then fail
    eat "_"
    return .entry index

def isWordChar (c : Char) : Bool :=
  c == '$' || c == '_' || (Text.digitIn 36 c).isSome

def cloneSuffix (levels : Nat) : Read CloneSuffix := do
  let levels ← descend levels
  eat "."
  let _ ← descend levels
  let rest ← get
  let word := rest.takeWhile isWordChar
  if word.isEmpty then fail
  set (rest.drop word.length)
  let numbers ← zeroOrMore do
    eat "."
    decimal
  return ⟨String.ofList word, numbers⟩

def callOffset (levels : Nat) : Read CallOffset := do
  let levels ← descend levels
  if ← has "h" then
    let _ ← descend levels
    let offset ← signed
    eat "_"
    return .fixed offset
  eat "v"
  let _ ← descend levels
  let offset ← signed
  eat "_"
  let virtualOffset ← signed
  eat "_"
  return .virtual offset virtualOffset

/-- Numbered from zero behind the first, which has no number. -/
def optionalNumber : Read (Option Nat) := do
  let number ← attempt? decimal
  eat "_"
  return number

def abiTags (levels : Nat) : Read (List String) := do
  let levels ← descend levels
  zeroOrMore do
    let levels ← descend levels
    eat "B"
    sourceName levels

def sizedBuiltin : Read String := do
  eat "D"
  if ← has "F" then
    let size ← decimal
    if size = 16 ∧ (← has "b") then return "std::bfloat16_t"
    if ← has "x" then return "_Float" ++ Text.decimal size ++ "x"
    eat "_"
    return "_Float" ++ Text.decimal size
  let sign ← if ← has "B" then pure "signed" else do
    eat "U"
    pure "unsigned"
  let size ← decimal
  eat "_"
  return sign ++ " _BitInt(" ++ Text.decimal size ++ ")"

def builtin (levels : Nat) : Read TypeRef := do
  let levels ← descend levels
  let _ ← descend levels
  TypeRef.builtin <$> firstOf
    [word builtins, sizedBuiltin, do
      eat "u"
      sourceName levels]

def resourceText : List Char → String
  | '$' :: 'S' :: rest => "/" ++ resourceText rest
  | '$' :: '_' :: rest => "." ++ resourceText rest
  | '$' :: '$' :: rest => "$" ++ resourceText rest
  | '$' :: _ :: rest => resourceText rest
  | c :: rest => c.toString ++ resourceText rest
  | [] => ""

/-- The name of a resource behind its length, which counts the mark in front of it. -/
def resource : Read String := do
  let count ← decimal
  let rest ← get
  let name := rest.take count
  if name.length < count then fail
  match name with
  | '_' :: name => do
    set (rest.drop count)
    return resourceText name
  | _ => fail

end Symbolizer.Mangling.Itanium.Grammar
