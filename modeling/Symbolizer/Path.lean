import Symbolizer.Text.Blank

/-!
File paths with a slash between their components. Empty components and single dots are spelling
only, except for a dot that starts a relative path. Two paths are the same when their components
are.
-/

namespace Symbolizer.Path

inductive Component where
  | root
  | current
  | parent
  | name (text : List Char)
  deriving DecidableEq, Repr

def isRooted (path : List Char) : Bool :=
  path.head? == some '/'

def segments (path : List Char) : List (List Char) :=
  Text.splitBy (· == '/') path

def component : List Char → Option Component
  | [] => none
  | ['.'] => none
  | ['.', '.'] => some .parent
  | text => some (.name text)

def components (path : List Char) : List Component :=
  if isRooted path then .root :: (segments (path.drop 1)).filterMap component
  else
    match segments path with
    | ['.'] :: rest => .current :: rest.filterMap component
    | pieces => pieces.filterMap component

def same (a b : String) : Bool :=
  components a.toList == components b.toList

def fileName? (path : List Char) : Option (List Char) :=
  match (components path).getLast? with
  | some (.name text) => some text
  | _ => none

/-- Segments with a mark on those that are components; `first` tells whether a leading dot counts. -/
def marked (first : Bool) : List (List Char) → List (Bool × List Char)
  | [] => []
  | piece :: pieces =>
    ((first && piece == ['.']) || (component piece).isSome, piece) :: marked false pieces

def dropUnmarkedEnd (pieces : List (Bool × List Char)) : List (Bool × List Char) :=
  (pieces.reverse.dropWhile (fun piece => !piece.1)).reverse

/-- The segments in front of the last component, or nothing when there is no component. -/
def beforeLast? (pieces : List (Bool × List Char)) : Option (List (List Char)) :=
  match dropUnmarkedEnd pieces with
  | [] => none
  | kept => some ((dropUnmarkedEnd kept.dropLast).map Prod.snd)

def parent? (path : List Char) : Option (List Char) :=
  if isRooted path then
    (beforeLast? (marked false (segments (path.drop 1)))).map
      fun pieces => '/' :: Text.joinWith ['/'] pieces
  else
    (beforeLast? (marked true (segments path))).map (Text.joinWith ['/'])

/-- A path below `base`; a rooted path stands for itself. -/
def join (base path : List Char) : List Char :=
  if isRooted path then path
  else if base.isEmpty || base.getLast? == some '/' then base ++ path
  else base ++ '/' :: path

end Symbolizer.Path
