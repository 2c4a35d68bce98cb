import Symbolizer.Bytes
import Symbolizer.Text.Utf8

/-!
The link from a stripped image to the file that holds its debug information: a file name that ends
at a zero byte, padding to a multiple of four, and a checksum. The checksum is carried along and
never verified.
-/

namespace Symbolizer

structure DebugLink where
  fileName : String
  crc : Option UInt32
  deriving DecidableEq, Repr

namespace DebugLink

def sectionName : String := ".gnu_debuglink"

def roundUp4 (n : Nat) : Nat :=
  (n + 3) / 4 * 4

/-- Nothing exactly when the name is empty. -/
def parse? (data : Bytes) : Option DebugLink :=
  let name := data.takeWhile (· != 0)
  if name.isEmpty then none
  else
    let crc := data.number? (roundUp4 (name.length + 1)) 4
    some ⟨Text.Utf8.toText name, crc.map UInt32.ofNat⟩

def encode (fileName : String) (crc : UInt32) : Bytes :=
  let name := Text.Utf8.ofText fileName
  name ++ List.replicate (roundUp4 (name.length + 1) - name.length) 0
    ++ Bytes.ofNat 4 crc.toNat

end DebugLink

end Symbolizer
