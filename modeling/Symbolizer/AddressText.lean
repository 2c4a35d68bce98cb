import Symbolizer.Text.Blank
import Symbolizer.Text.Numeral

/-!
Addresses as a user types them: hexadecimal behind `0x`, else decimal, with underscores anywhere
among the digits and white space around.
-/

namespace Symbolizer.AddressText

structure Fault where
  /-- The text without the white space around it. -/
  text : String
  cause : Text.NumeralError
  deriving DecidableEq, Repr

def Fault.message (fault : Fault) : String :=
  "invalid address '" ++ fault.text ++ "': " ++ fault.cause.message

def withoutUnderscores (digits : List Char) : List Char :=
  digits.filter (· != '_')

def read : List Char → Except Text.NumeralError Nat
  | '0' :: 'x' :: digits => Text.readUnsigned 16 64 (withoutUnderscores digits)
  | '0' :: 'X' :: digits => Text.readUnsigned 16 64 (withoutUnderscores digits)
  | digits => Text.readUnsigned 10 64 (withoutUnderscores digits)

def parse (text : String) : Except Fault UInt64 :=
  let trimmed := Text.trim text.toList
  match read trimmed with
  | .ok value => .ok (UInt64.ofNat value)
  | .error cause => .error ⟨String.ofList trimmed, cause⟩

end Symbolizer.AddressText
