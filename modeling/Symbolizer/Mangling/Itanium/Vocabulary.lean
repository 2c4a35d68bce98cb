import Symbolizer.Mangling.Itanium.Syntax

/-!
The fixed codes of Itanium names: operators, builtin types and abbreviations of the standard
library.
-/

namespace Symbolizer.Mangling.Itanium

def plain (symbol : String) (arity : Nat) : SimpleOperator := ⟨symbol, arity, false⟩
def worded (symbol : String) (arity : Nat) : SimpleOperator := ⟨symbol, arity, true⟩

def operators : List (String × SimpleOperator) :=
  [("nw", worded "new" 3), ("na", worded "new[]" 3), ("dl", worded "delete" 1),
    ("da", worded "delete[]" 1), ("aw", worded "co_await" 1), ("ps", plain "+" 1),
    ("ng", plain "-" 1), ("ad", plain "&" 1), ("de", plain "*" 1), ("co", plain "~" 1),
    ("pl", plain "+" 2), ("mi", plain "-" 2), ("ml", plain "*" 2), ("dv", plain "/" 2),
    ("rm", plain "%" 2), ("an", plain "&" 2), ("or", plain "|" 2), ("eo", plain "^" 2),
    ("aS", plain "=" 2), ("pL", plain "+=" 2), ("mI", plain "-=" 2), ("mL", plain "*=" 2),
    ("dV", plain "/=" 2), ("rM", plain "%=" 2), ("aN", plain "&=" 2), ("oR", plain "|=" 2),
    ("eO", plain "^=" 2), ("ls", plain "<<" 2), ("rs", plain ">>" 2), ("lS", plain "<<=" 2),
    ("rS", plain ">>=" 2), ("eq", plain "==" 2), ("ne", plain "!=" 2), ("lt", plain "<" 2),
    ("gt", plain ">" 2), ("le", plain "<=" 2), ("ge", plain ">=" 2), ("ss", plain "<=>" 2),
    ("nt", plain "!" 1), ("aa", plain "&&" 2), ("oo", plain "||" 2), ("pp", plain "++" 1),
    ("mm", plain "--" 1), ("cm", plain "," 2), ("pm", plain "->*" 2), ("pt", plain "->" 2),
    ("cl", plain "()" 2), ("ix", plain "[]" 2), ("qu", plain "?:" 3)]

def builtins : List (String × String) :=
  [("v", "void"), ("w", "wchar_t"), ("b", "bool"), ("c", "char"), ("a", "signed char"),
    ("h", "unsigned char"), ("s", "short"), ("t", "unsigned short"), ("i", "int"),
    ("j", "unsigned int"), ("l", "long"), ("m", "unsigned long"), ("x", "long long"),
    ("y", "unsigned long long"), ("n", "__int128"), ("o", "unsigned __int128"), ("f", "float"),
    ("d", "double"), ("e", "long double"), ("g", "__float128"), ("z", "..."),
    ("Dd", "decimal64"), ("De", "decimal128"), ("Df", "decimal32"), ("Dh", "half"),
    ("Di", "char32_t"), ("Ds", "char16_t"), ("Du", "char8_t"), ("Da", "auto"),
    ("Dc", "decltype(auto)"), ("Dn", "std::nullptr_t")]

def standards : List (String × Standard) :=
  [("St", .std), ("Sa", .allocator), ("Sb", .basicString), ("Ss", .string), ("Si", .istream),
    ("So", .ostream), ("Sd", .iostream)]

namespace Standard

def text : Standard → String
  | .std => "std"
  | .allocator => "std::allocator"
  | .basicString => "std::basic_string"
  | .string => "std::string"
  | .istream => "std::basic_istream<char, std::char_traits<char> >"
  | .ostream => "std::ostream"
  | .iostream => "std::basic_iostream<char, std::char_traits<char> >"

def ownName? : Standard → Option String
  | .std => none
  | .allocator => some "allocator"
  | .basicString => some "basic_string"
  | .string => some "string"
  | .istream => some "basic_istream"
  | .ostream => some "ostream"
  | .iostream => some "basic_iostream"

end Standard

end Symbolizer.Mangling.Itanium
