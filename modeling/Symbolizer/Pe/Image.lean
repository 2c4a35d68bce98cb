import Symbolizer.Fault

/-!
A PE image opened from a file system: its path, its size and its sections.
-/

namespace Symbolizer.Pe

structure Image where
  path : String
  size : Nat
  object : ObjectFile
  deriving Repr

def Image.ofBytes (path : String) (data : Bytes) : Except Fault Image :=
  match FileKind.of data with
  | .error fault => .error (.notPe path (.kindUnknown fault))
  | .ok kind =>
    if kind ≠ .pe32 ∧ kind ≠ .pe64 then .error (.notPe path (.unexpectedKind kind))
    else
      match readObject kind data with
      | .error fault => .error (.malformedObject fault)
      | .ok object => .ok ⟨path, data.length, object⟩

def Image.open (files : FileSystem) (path : String) : Except Fault Image :=
  match files.read path with
  | .error fault => .error (.file fault)
  | .ok data => Image.ofBytes path data

end Symbolizer.Pe
