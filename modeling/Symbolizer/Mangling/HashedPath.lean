import Symbolizer.Mangling.Suffix
import Symbolizer.Text.Blank

/-!
Paths with a hash. A name is a sequence of identifiers with their lengths in front, closed by an
`E`; a last identifier that is a hash is left out. Inside an identifier two periods separate path
segments, and characters that identifiers cannot have stand between dollar signs.
-/

namespace Symbolizer.Mangling.HashedPath

def isDigit (c : Char) : Bool :=
  '0' ≤ c && c ≤ '9'

def number (digits : List Char) : Nat :=
  digits.foldl (fun value c => value * 10 + (c.toNat - '0'.toNat)) 0

def identifier? (name : List Char) : Option (List Char × List Char) :=
  let digits := name.takeWhile isDigit
  let rest := name.dropWhile isDigit
  let length := number digits
  if digits.isEmpty || rest.length ≤ length then none
  else some (rest.take length, rest.drop length)

/-- The identifiers up to the closing mark, and the text behind it. Every identifier takes at least
one character, so the length of the name is fuel enough. -/
def identifiers? : Nat → List Char → Option (List (List Char) × List Char)
  | 0, _ => none
  | fuel + 1, name =>
    match name with
    | 'E' :: rest => some ([], rest)
    | name =>
      match identifier? name with
      | none => none
      | some (first, rest) =>
        (identifiers? fuel rest).map fun (others, suffix) => (first :: others, suffix)

def isHash : List Char → Bool
  | 'h' :: digits => digits.all isHexDigit
  | _ => false

def isControl (n : Nat) : Bool :=
  n < 0x20 || (0x7f ≤ n && n < 0xa0)

def numbered? (digits : List Char) : Option Char :=
  let isLower (c : Char) : Bool := isDigit c || ('a' ≤ c && c ≤ 'f')
  if !digits.all isLower then none
  else
    match Text.readUnsigned 16 32 digits with
    | .error _ => none
    | .ok n => if h : n.isValidChar then if isControl n then none else some (Char.ofNatAux n h) else none

def escape? (code : List Char) : Option Char :=
  match String.ofList code with
  | "SP" => some '@'
  | "BP" => some '*'
  | "RF" => some '&'
  | "LT" => some '<'
  | "GT" => some '>'
  | "LP" => some '('
  | "RP" => some ')'
  | "C" => some ','
  | _ =>
    match code with
    | 'u' :: digits => numbered? digits
    | _ => none

/-- An identifier with its escapes resolved, up to the first that cannot be. -/
def unescape : Nat → List Char → List Char
  | 0, text => text
  | fuel + 1, text =>
    match text with
    | [] => []
    | '.' :: '.' :: rest => "::".toList ++ unescape fuel rest
    | '.' :: rest => '.' :: unescape fuel rest
    | '$' :: rest =>
      match splitOnce? ['$'] rest with
      | none => text
      | some (code, rest') =>
        match escape? code with
        | some c => c :: unescape fuel rest'
        | none => text
    | c :: rest => c :: unescape fuel rest

/-- An identifier that starts with an escape has an underscore in front. -/
def readable (identifier : List Char) : List Char :=
  let text :=
    match identifier with
    | '_' :: '$' :: rest => '$' :: rest
    | text => text
  unescape (text.length + 1) text

def withoutHash (identifiers : List (List Char)) : List (List Char) :=
  if identifiers.getLast?.any isHash then identifiers.dropLast else identifiers

def demangleBody? (body : List Char) : Option (List Char × List Char) :=
  if body.any fun c => 0x80 ≤ c.toNat then none
  else
    (identifiers? (body.length + 1) body).map fun (identifiers, suffix) =>
      (Text.joinWith "::".toList ((withoutHash identifiers).map readable), suffix)

def demangle? (name : List Char) : Option (List Char × List Char) :=
  match name with
  | '_' :: 'Z' :: 'N' :: body => demangleBody? body
  | _ => none

end Symbolizer.Mangling.HashedPath
