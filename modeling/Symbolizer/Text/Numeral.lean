/-!
Numbers as text: hexadecimal and decimal digits of a natural number, and the reading of a bounded
unsigned number in a given radix. Reading takes one optional plus sign, checks every digit before
it checks the bound, and never wraps.
-/

namespace Symbolizer.Text

def hexDigits (n : Nat) : List Char :=
  Nat.toDigits 16 n

def hex (n : Nat) : String :=
  String.ofList (hexDigits n)

def hexUpper (n : Nat) : String :=
  String.ofList ((hexDigits n).map Char.toUpper)

def decimalDigits (n : Nat) : List Char :=
  Nat.toDigits 10 n

def decimal (n : Nat) : String :=
  String.ofList (decimalDigits n)

def decimalInt (n : Int) : String :=
  match n with
  | .ofNat n => decimal n
  | .negSucc n => "-" ++ decimal (n + 1)

def zeroPadded (width : Nat) (digits : List Char) : String :=
  String.ofList (List.replicate (width - digits.length) '0' ++ digits)

inductive NumeralError where
  | empty
  | invalidDigit
  | tooLarge
  deriving DecidableEq, Repr

def NumeralError.message : NumeralError → String
  | .empty => "cannot parse integer from empty string"
  | .invalidDigit => "invalid digit found in string"
  | .tooLarge => "number too large to fit in target type"

def digitValue (c : Char) : Option Nat :=
  if '0' ≤ c ∧ c ≤ '9' then some (c.toNat - '0'.toNat)
  else if 'a' ≤ c ∧ c ≤ 'z' then some (c.toNat - 'a'.toNat + 10)
  else if 'A' ≤ c ∧ c ≤ 'Z' then some (c.toNat - 'A'.toNat + 10)
  else none

def digitIn (radix : Nat) (c : Char) : Option Nat :=
  (digitValue c).filter (· < radix)

def readDigits (radix bits : Nat) : Nat → List Char → Except NumeralError Nat
  | value, [] => .ok value
  | value, c :: rest =>
    match digitIn radix c with
    | none => .error .invalidDigit
    | some digit =>
      let next := value * radix + digit
      if next < 1 <<< bits then readDigits radix bits next rest else .error .tooLarge

/-- An unsigned number below `2 ^ bits`. A plus sign alone is a missing digit, not an empty text. -/
def readUnsigned (radix bits : Nat) : List Char → Except NumeralError Nat
  | [] => .error .empty
  | ['+'] => .error .invalidDigit
  | '+' :: digits => readDigits radix bits 0 digits
  | digits => readDigits radix bits 0 digits

end Symbolizer.Text
