import Symbolizer.Text.Numeral

/-!
Punycode: a text outside ASCII as its ASCII characters and a list of deltas, each of which says where
the next character goes and which it is. Digits are the letters and then the decimal digits.
-/

namespace Symbolizer.Mangling.Punycode

def base : Nat := 36
def leastThreshold : Nat := 1
def greatestThreshold : Nat := 26
def skew : Nat := 38

def bound : Nat := UInt64.size

def digit? (c : Char) : Option Nat :=
  if 'a' ≤ c ∧ c ≤ 'z' then some (c.toNat - 'a'.toNat)
  else if '0' ≤ c ∧ c ≤ '9' then some (c.toNat - '0'.toNat + 26)
  else none

def threshold (bias position : Nat) : Nat :=
  min (max (position - bias) leastThreshold) greatestThreshold

def delta? (bias : Nat) : Nat → Nat → Nat → List Char → Option (Nat × List Char)
  | _, _, _, [] => none
  | delta, weight, position, c :: rest => do
    let position := position + base
    let threshold := threshold bias position
    let digit ← digit? c
    let delta := delta + digit * weight
    guard (delta < bound)
    if digit < threshold then return (delta, rest)
    let weight := weight * (base - threshold)
    guard (weight < bound)
    delta? bias delta weight position rest

/-- The steps it takes to bring a delta down; every step divides it by 35. -/
def settle : Nat → Nat → Nat → Nat × Nat
  | 0, delta, position => (delta, position)
  | fuel + 1, delta, position =>
    if (base - leastThreshold) * greatestThreshold / 2 < delta then
      settle fuel (delta / (base - leastThreshold)) (position + base)
    else (delta, position)

def adapt (delta damping length : Nat) : Nat :=
  let scaled := delta / damping
  let (delta, position) := settle 64 (scaled + scaled / length) 0
  position + (base - leastThreshold + 1) * delta / (delta + skew)

structure Progress where
  text : List Char
  bias : Nat
  damping : Nat
  place : Nat
  code : Nat

def insertAt (text : List Char) (place : Nat) (c : Char) : List Char :=
  text.take place ++ c :: text.drop place

def maxLength : Nat := 128

def step? (progress : Progress) (delta : Nat) : Option Progress := do
  let length := progress.text.length + 1
  let place := progress.place + delta
  guard (place < bound)
  let code := progress.code + place / length
  guard (code < UInt32.size ∧ code.isValidChar ∧ length ≤ maxLength)
  return {
    text := insertAt progress.text (place % length) (Char.ofNat code)
    bias := adapt delta progress.damping length
    damping := 2
    place := place % length + 1
    code
  }

/-- Every delta takes at least one digit, so the number of digits is fuel enough. -/
def decodeFrom? : Nat → Progress → List Char → Option (List Char)
  | 0, _, _ => none
  | fuel + 1, progress, digits => do
    let (delta, rest) ← delta? progress.bias 0 1 0 digits
    let progress ← step? progress delta
    if rest.isEmpty then return progress.text
    decodeFrom? fuel progress rest

/-- The text of ASCII characters and deltas; without deltas there is none. -/
def decode? (ascii deltas : List Char) : Option (List Char) :=
  if maxLength < ascii.length then none
  else decodeFrom? (deltas.length + 1) ⟨ascii, 72, 700, 0, 0x80⟩ deltas

end Symbolizer.Mangling.Punycode
