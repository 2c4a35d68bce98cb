import Symbolizer.Mangling.Scheme

/-!
What compilers append to mangled names. The mark of an internal symbol that was imported into
another unit says nothing and is cut off; words behind a period are kept when they are printable
ASCII without spaces.
-/

namespace Symbolizer.Mangling

def splitOnce? (mark : List Char) : List Char → Option (List Char × List Char)
  | [] => if mark.isEmpty then some ([], []) else none
  | c :: rest =>
    if mark.isPrefixOf (c :: rest) then some ([], (c :: rest).drop mark.length)
    else (splitOnce? mark rest).map fun (front, back) => (c :: front, back)

def isImportDigit (c : Char) : Bool :=
  ('A' ≤ c && c ≤ 'F') || ('0' ≤ c && c ≤ '9') || c == '@'

def withoutImportMark (name : List Char) : List Char :=
  match splitOnce? ".llvm.".toList name with
  | some (front, back) => if back.all isImportDigit then front else name
  | none => name

def isGraphic (c : Char) : Bool :=
  0x21 ≤ c.toNat && c.toNat ≤ 0x7e

def isSuffix (text : List Char) : Bool :=
  text.isEmpty || (text.head? == some '.' && text.all isGraphic)

end Symbolizer.Mangling
