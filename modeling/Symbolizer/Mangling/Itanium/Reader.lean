import Symbolizer.Mangling.Itanium.Vocabulary
import Symbolizer.Text.Numeral

/-!
Reading with alternatives. A failed alternative gives its characters back, but what it entered into
the table stays there, and nesting too deep is no failed alternative: it ends the reading.
-/

namespace Symbolizer.Mangling.Itanium

inductive Failure where
  | mismatch
  | tooDeep
  deriving DecidableEq, Repr

structure Memory where
  table : Table
  /-- Set inside the type of a conversion operator. -/
  inConversion : Bool

/-- The rest of the name is the place in it. -/
abbrev Read := StateT (List Char) (ExceptT Failure (StateM Memory))

namespace Read

def fail : Read α :=
  throw .mismatch

def attempt? (read : Read α) : Read (Option α) := fun rest => ExceptT.mk do
  match ← (read.run rest).run with
  | .ok (value, rest) => return .ok (some value, rest)
  | .error .mismatch => return .ok (none, rest)
  | .error .tooDeep => return .error .tooDeep

def orElse (first second : Read α) : Read α := do
  match ← attempt? first with
  | some value => return value
  | none => second

def firstOf : List (Read α) → Read α
  | [] => fail
  | [read] => read
  | read :: others => orElse read (firstOf others)

def eat (text : String) : Read Unit := do
  let rest ← get
  if text.toList.isPrefixOf rest then set (rest.drop text.length) else fail

def has (text : String) : Read Bool := do
  return (← attempt? (eat text)).isSome

def peek? : Read (Option Char) := do
  return (← get).head?

def startsWith (text : String) : Read Bool := do
  return text.toList.isPrefixOf (← get)

def place : Read Nat := do
  return (← get).length

def repeated (read : Read α) : Nat → Read (List α)
  | 0 => return []
  | fuel + 1 => do
    match ← attempt? read with
    | none => return []
    | some first => return first :: (← repeated read fuel)

def zeroOrMore (read : Read α) : Read (List α) := do
  repeated read ((← place) + 1)

def oneOrMore (read : Read α) : Read (List α) := do
  let first ← read
  return first :: (← zeroOrMore read)

/-- What the first code of a vocabulary that stands here means. No code starts another. -/
def word (vocabulary : List (String × α)) : Read α := do
  let rest ← get
  match vocabulary.find? fun (code, _) => code.toList.isPrefixOf rest with
  | some (code, value) => do
    set (rest.drop code.length)
    return value
  | none => fail

def digitOf (base : Nat) (c : Char) : Option Nat :=
  if 'a' ≤ c ∧ c ≤ 'z' then none else Text.digitIn base c

/-- A number without leading zeros that fits 63 bits. -/
def number (base : Nat) : Read Nat := do
  let rest ← get
  let digits := rest.takeWhile fun c => (digitOf base c).isSome
  if digits.isEmpty ∨ (1 < digits.length ∧ digits.head? = some '0') then fail
  let value := digits.foldl (fun value c => value * base + (digitOf base c).getD 0) 0
  if UInt64.size / 2 ≤ value then fail
  set (rest.drop digits.length)
  return value

def decimal : Read Nat :=
  number 10

def signed : Read Int := do
  if ← has "n" then return -((← decimal : Nat) : Int) else return (← decimal : Nat)

def isIdentifierChar (c : Char) : Bool :=
  c == '$' || c == '_' || c == '.' || (Text.digitIn 36 c).isSome

def descend : Nat → Read Nat
  | 0 => throw .tooDeep
  | levels + 1 => return levels

def sourceName (levels : Nat) : Read String := do
  let levels ← descend levels
  let count ← decimal
  let rest ← get
  let name := rest.take count
  if count = 0 ∨ name.length < count then fail
  let _ ← descend levels
  if !name.all isIdentifierChar then fail
  set (rest.drop count)
  return String.ofList name

def remember (entry : Entry) : Read Link := do
  let memory ← getThe Memory
  let table := memory.table
  set { memory with table := { table with entries := table.entries ++ [entry] } }
  return .entry table.entries.length

def rememberLast (entry : Entry) : Read Link := do
  let memory ← getThe Memory
  let table := memory.table
  set { memory with table := { table with lasts := table.lasts ++ [entry] } }
  return .last table.lasts.length

def rememberType (type : CType) : Read TypeRef := do
  return .link (← remember (.type type))

end Read

end Symbolizer.Mangling.Itanium
