/-!
Paths as compilers record them: a directory, perhaps another, and a file name, on whichever system
the code was compiled. A component that starts at a root drops everything in front of it.
-/

namespace Symbolizer.RecordedPath

def hasSlashRoot (path : List Char) : Bool :=
  path.head? == some '/'

/-- A backslash in front, or one character of one byte and then a colon and a separator. -/
def hasDriveRoot : List Char → Bool
  | '\\' :: _ => true
  | letter :: ':' :: separator :: _ =>
    letter.toNat < 0x80 && (separator == '\\' || separator == '/')
  | _ => false

def endsInSeparator (path : List Char) : Bool :=
  path.getLast? == some '/' || path.getLast? == some '\\'

/-- A backslash exactly behind a path with a drive root. -/
def separator (path : List Char) : Char :=
  if hasDriveRoot path then '\\' else '/'

def push (path component : List Char) : List Char :=
  if component.isEmpty then path
  else if hasSlashRoot component || hasDriveRoot component then component
  else if path.isEmpty || endsInSeparator path then path ++ component
  else path ++ separator path :: component

def joinAll (components : List (List Char)) : List Char :=
  components.foldl push []

end Symbolizer.RecordedPath
