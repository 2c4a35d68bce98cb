import Symbolizer.Text.Numeral
import Symbolizer.Text.Printable

/-!
Characters as they stand in quoted literals. Backslash, the quotes and the usual control characters
are escaped with one letter, and whatever does not show as itself with its number. Inside one kind
of quotes the other kind needs no escape.
-/

namespace Symbolizer.Text

def escapeChar (c : Char) : List Char :=
  match c with
  | '\x00' => ['\\', '0']
  | '\t' => ['\\', 't']
  | '\r' => ['\\', 'r']
  | '\n' => ['\\', 'n']
  | '\x22' => ['\\', '\x22']
  | '\x27' => ['\\', '\x27']
  | '\\' => ['\\', '\\']
  | c =>
    if isExtender c || !isPrintable c then ['\\', 'u', '\x7b'] ++ hexDigits c.toNat ++ ['\x7d']
    else [c]

def isQuote (c : Char) : Bool :=
  c == '\x22' || c == '\x27'

def quotedChar (quote c : Char) : List Char :=
  if isQuote c && c != quote then [c] else escapeChar c

def quoted (quote : Char) (cs : List Char) : List Char :=
  quote :: cs.flatMap (quotedChar quote) ++ [quote]

end Symbolizer.Text
