import Symbolizer.Text.Utf8

/-!
UTF-16 both ways, without a terminator. Decoding stops at the first zero unit and turns every
surrogate that has no partner into a replacement character.
-/

namespace Symbolizer.Text.Utf16

def encodeChar (c : Char) : List UInt16 :=
  let n := c.toNat
  if n < 0x10000 then [UInt16.ofNat n]
  else
    let rest := n - 0x10000
    [UInt16.ofNat (0xd800 + rest / 0x400), UInt16.ofNat (0xdc00 + rest % 0x400)]

def encode (cs : List Char) : List UInt16 :=
  cs.flatMap encodeChar

def isHigh (unit : UInt16) : Bool :=
  0xd800 ≤ unit.toNat && unit.toNat < 0xdc00

def isLow (unit : UInt16) : Bool :=
  0xdc00 ≤ unit.toNat && unit.toNat < 0xe000

def pair (high low : UInt16) : Char :=
  Char.ofNat (0x10000 + (high.toNat - 0xd800) * 0x400 + (low.toNat - 0xdc00))

def decode : List UInt16 → List Char
  | [] => []
  | [unit] => [if isHigh unit || isLow unit then Utf8.replacement else Char.ofNat unit.toNat]
  | first :: second :: rest =>
    if isHigh first then
      if isLow second then pair first second :: decode rest
      else Utf8.replacement :: decode (second :: rest)
    else if isLow first then Utf8.replacement :: decode (second :: rest)
    else Char.ofNat first.toNat :: decode (second :: rest)

def ofText (text : String) : List UInt16 :=
  encode text.toList

def overwrite (buffer : List UInt16) (text : String) : List UInt16 :=
  buffer.take 0 ++ ofText text

/-- The text before the first zero unit. -/
def toText (units : List UInt16) : String :=
  String.ofList (decode (units.takeWhile (· != 0)))

end Symbolizer.Text.Utf16
