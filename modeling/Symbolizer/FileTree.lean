import Symbolizer.Bytes
import Symbolizer.Path
import Symbolizer.Text.Utf8

/-!
Where images are read from. A file system answers two questions: what a path holds, and whether it
names a regular file. A file tree is one that consists of listed files below the current directory,
with the directories they need and nothing outside.
-/

namespace Symbolizer

inductive FileFault where
  | notFound
  | notADirectory
  | nameTooLong
  | zeroInName
  | isDirectory
  | other (kind : String)
  deriving DecidableEq, Repr

structure FileSystem where
  read : String → Except FileFault Bytes
  isFile : String → Bool

structure FileTree where
  /-- Each file with the names on the way to it. -/
  files : List (List (List Char) × Bytes)
  deriving Repr

namespace FileTree

/-- Where a path leads: to a place below the current directory, or to a directory outside. -/
inductive Place where
  | inside (names : List (List Char))
  | outside
  deriving DecidableEq, Repr

def ofList (files : List (String × Bytes)) : FileTree :=
  ⟨files.map fun (path, data) =>
    ((Path.segments path.toList).filter fun piece => (Path.component piece).isSome, data)⟩

def contents? (tree : FileTree) (names : List (List Char)) : Option Bytes :=
  (tree.files.find? (·.1 == names)).map Prod.snd

def isDirectory (tree : FileTree) (names : List (List Char)) : Bool :=
  names.isEmpty || tree.files.any fun file => names.length < file.1.length && names.isPrefixOf file.1

/-- One step along a path. Only a directory can be stepped out of, even by an empty or dot segment. -/
def step (tree : FileTree) (place : Place) (piece : List Char) : Except FileFault Place :=
  match place with
  | .outside =>
    match piece with
    | [] | ['.'] | ['.', '.'] => .ok .outside
    | _ => .error .notFound
  | .inside names =>
    if !tree.isDirectory names then .error .notADirectory
    else
      match piece with
      | [] | ['.'] => .ok place
      | ['.', '.'] => .ok (if names.isEmpty then .outside else .inside names.dropLast)
      | _ =>
        let next := names ++ [piece]
        if 255 < (Text.Utf8.encode piece).length then .error .nameTooLong
        else if tree.isDirectory next || (tree.contents? next).isSome then .ok (.inside next)
        else .error .notFound

def walk (tree : FileTree) : Place → List (List Char) → Except FileFault Place
  | place, [] => .ok place
  | place, piece :: pieces => do tree.walk (← tree.step place piece) pieces

def locate (tree : FileTree) (path : List Char) : Except FileFault Place :=
  if '\x00' ∈ path then .error .zeroInName
  else if path.isEmpty then .error .notFound
  else if 4095 < (Text.Utf8.encode path).length then .error .nameTooLong
  else if Path.isRooted path then tree.walk .outside (Path.segments (path.drop 1))
  else tree.walk (.inside []) (Path.segments path)

def read (tree : FileTree) (path : String) : Except FileFault Bytes := do
  match ← tree.locate path.toList with
  | .outside => .error .isDirectory
  | .inside names =>
    match tree.contents? names with
    | some data => .ok data
    | none => .error .isDirectory

def isFile (tree : FileTree) (path : String) : Bool :=
  match tree.locate path.toList with
  | .ok (.inside names) => (tree.contents? names).isSome
  | _ => false

def canMake (tree : FileTree) : List (List Char) → List (List Char) → Bool
  | _, [] => true
  | names, piece :: pieces =>
    let next :=
      match Path.component piece with
      | none => names
      | some .parent => names.dropLast
      | some _ => names ++ [piece]
    (tree.contents? next).isNone && tree.canMake next pieces

/-- A log file needs a directory that exists or can be made; outside the tree one always can. -/
def canLogTo (tree : FileTree) (path : String) : Bool :=
  match Path.parent? path.toList with
  | none => true
  | some directory => Path.isRooted directory || tree.canMake [] (Path.segments directory)

def toFileSystem (tree : FileTree) : FileSystem :=
  ⟨tree.read, tree.isFile⟩

end FileTree

end Symbolizer
