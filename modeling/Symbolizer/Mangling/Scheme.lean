import Symbolizer.Symbol
import Symbolizer.Text.Utf8

/-!
Which language a name comes from, told from its mangling: a path with a hash or a name that starts
with `_R`, an Itanium or question-mark name, a plain identifier, or none of these.
-/

namespace Symbolizer.Mangling

def isHexDigit (c : Char) : Bool :=
  ('0' ≤ c && c ≤ '9') || ('a' ≤ c && c ≤ 'f') || ('A' ≤ c && c ≤ 'F')

def isIdentifierChar (c : Char) : Bool :=
  ('0' ≤ c && c ≤ '9') || ('a' ≤ c && c ≤ 'z') || ('A' ≤ c && c ≤ 'Z') || c == '_' || c == '$'

def startsWith (text : String) (name : List Char) : Bool :=
  text.toList.isPrefixOf name

def withoutLast? (mark : Char) (name : List Char) : Option (List Char) :=
  if name.getLast? = some mark then some name.dropLast else none

/-- `17h` and sixteen hexadecimal digits in the last nineteen bytes of a text. The outcome is nothing when the
text is too short for a cut, or is cut inside a character. -/
def endsInHash? (body : List Char) : Option Bool := do
  let marked ← Text.Utf8.from? body (← Text.Utf8.placeFromEnd? body 19)
  if startsWith "17h" marked then
    let digits ← Text.Utf8.from? body (← Text.Utf8.placeFromEnd? body 16)
    return Text.Utf8.everyByte isHexDigit digits
  else return false

/-- A hash in front of a final `E`. Nothing is cut unless there are enough bytes and the first cut leads to a
boundary. -/
def endsInPathHash? (name : List Char) : Option Bool :=
  match withoutLast? 'E' name with
  | none => some false
  | some body =>
    if Text.Utf8.size body < 19 then some false
    else do
      let mark ← Text.Utf8.placeFromEnd? body 19
      if Text.Utf8.isBoundary body mark then endsInHash? body else return false

def isPath? (name : List Char) : Option Bool :=
  if startsWith "_R" name then some true
  else if startsWith "_ZN" name then endsInPathHash? name
  else some false

def classify? (name : List Char) : Option Language := do
  if ← isPath? name then return .rust
  else if startsWith "_Z" name || startsWith "?" name then return .cpp
  else if !name.isEmpty && Text.Utf8.everyByte isIdentifierChar name then return .c
  else return .unknown

/-- There is no name for which a cut fails. -/
def classify (name : List Char) : Language :=
  (classify? name).getD .unknown

structure Demanglers where
  hashedPath : String → Option String
  itanium : String → Option String

/-- Question-mark names have no readable form. -/
def Demanglers.apply (demanglers : Demanglers) (language : Language) (raw : String) :
    Option String :=
  match language with
  | .rust => demanglers.hashedPath raw
  | .cpp => if startsWith "_Z" raw.toList then demanglers.itanium raw else none
  | _ => none

end Symbolizer.Mangling
