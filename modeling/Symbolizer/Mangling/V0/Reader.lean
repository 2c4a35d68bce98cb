import Symbolizer.Mangling.Punycode

/-!
Reading the symbols of the v0 scheme: numbers in base 62, identifiers, hexadecimal literals and
references back to an earlier place. The reader counts how deeply it is nested and gives up beyond
a fixed depth.
-/

namespace Symbolizer.Mangling.V0

inductive Fault where
  | invalid
  | tooDeep
  deriving DecidableEq, Repr

def Fault.message : Fault → String
  | .invalid => "\x7binvalid syntax\x7d"
  | .tooDeep => "\x7brecursion limit reached\x7d"

structure Place where
  position : Nat
  rest : List Char
  depth : Nat

abbrev Read := StateT Place (Except Fault)

def maxDepth : Nat := 500

structure Identifier where
  ascii : List Char
  /-- The deltas of a text outside ASCII. -/
  punycode : List Char
  deriving DecidableEq, Repr

namespace Identifier

def isEmpty (identifier : Identifier) : Bool :=
  identifier.ascii.isEmpty && identifier.punycode.isEmpty

/-- Deltas that cannot be decoded are shown as they are. -/
def readable (identifier : Identifier) : List Char :=
  if identifier.punycode.isEmpty then identifier.ascii
  else
    match Punycode.decode? identifier.ascii identifier.punycode with
    | some text => text
    | none =>
      let front := if identifier.ascii.isEmpty then [] else identifier.ascii ++ ['-']
      "punycode\x7b".toList ++ front ++ identifier.punycode ++ ['\x7d']

end Identifier

namespace Read

def advance (count : Nat) : Read Unit :=
  modify fun place =>
    { place with position := place.position + count, rest := place.rest.drop count }

def next : Read Char := do
  match (← get).rest with
  | [] => throw .invalid
  | c :: _ => do
    advance 1
    return c

def eat (c : Char) : Read Bool := do
  if (← get).rest.head? = some c then
    advance 1
    return true
  return false

def enter : Read Unit := do
  let place ← get
  if maxDepth ≤ place.depth then throw .tooDeep
  set { place with depth := place.depth + 1 }

def digit62? (c : Char) : Option Nat :=
  if '0' ≤ c ∧ c ≤ '9' then some (c.toNat - '0'.toNat)
  else if 'a' ≤ c ∧ c ≤ 'z' then some (c.toNat - 'a'.toNat + 10)
  else if 'A' ≤ c ∧ c ≤ 'Z' then some (c.toNat - 'A'.toNat + 36)
  else none

def word (n : Nat) : Read Nat :=
  if n < UInt64.size then return n else throw .invalid

def digits62 : Nat → Nat → Read Nat
  | 0, _ => throw .invalid
  | fuel + 1, value => do
    match ← next with
    | '_' => word (value + 1)
    | c =>
      match digit62? c with
      | none => throw .invalid
      | some digit => digits62 fuel (← word (value * 62 + digit))

/-- An underscore alone is zero. -/
def integer62 : Read Nat := do
  if ← eat '_' then return 0
  digits62 ((← get).rest.length + 1) 0

/-- Zero without the tag, otherwise one more than the number behind it. -/
def optionalInteger62 (tag : Char) : Read Nat := do
  if ← eat tag then word ((← integer62) + 1) else return 0

def disambiguator : Read Nat :=
  optionalInteger62 's'

/-- Upper-case name spaces are special and have a letter, lower-case ones have none. -/
def nameSpace : Read (Option Char) := do
  let c ← next
  if 'A' ≤ c ∧ c ≤ 'Z' then return some c
  if 'a' ≤ c ∧ c ≤ 'z' then return none
  throw .invalid

def isDigit (c : Char) : Bool :=
  '0' ≤ c && c ≤ '9'

def isNibble (c : Char) : Bool :=
  isDigit c || ('a' ≤ c && c ≤ 'f')

def nibbles : Read (List Char) := do
  let rest := (← get).rest
  let digits := rest.takeWhile isNibble
  match rest.drop digits.length with
  | '_' :: _ => do
    advance (digits.length + 1)
    return digits
  | _ => throw .invalid

/-- The length of an identifier; it has no leading zeros. -/
def length : Read Nat := do
  let rest := (← get).rest
  let digits := if rest.head? = some '0' then ['0'] else rest.takeWhile isDigit
  if digits.isEmpty then throw .invalid
  advance digits.length
  return digits.foldl (fun value c => value * 10 + (c.toNat - '0'.toNat)) 0

def splitPunycode (text : List Char) : Identifier :=
  let deltas := (text.reverse.takeWhile (· != '_')).reverse
  ⟨text.take (text.length - deltas.length - 1), deltas⟩

def identifier : Read Identifier := do
  let isPunycode ← eat 'u'
  let count ← length
  let _ ← eat '_'
  let rest := (← get).rest
  if rest.length < count then throw .invalid
  let text := rest.take count
  advance count
  if !isPunycode then return ⟨text, []⟩
  let identifier := splitPunycode text
  if identifier.punycode.isEmpty then throw .invalid
  return identifier

/-- The place an index refers to, one level deeper. It lies in front of the reference. -/
def backReference (symbol : List Char) : Read Place := do
  let start := (← get).position - 1
  let target ← integer62
  if start ≤ target then throw .invalid
  let depth := (← get).depth
  if maxDepth ≤ depth then throw .tooDeep
  return ⟨target, symbol.drop target, depth + 1⟩

end Read

end Symbolizer.Mangling.V0
