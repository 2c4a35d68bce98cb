import Symbolizer.Address
import Symbolizer.Text.Blank

/-!
The modules of a process: which file owns an address, and where it was loaded. A resolution asks a
module map and nothing else. A module list serves as one; it is given as such or derived from a memory
map, where every file with an executable mapping is a module that reaches from its lowest to its
highest mapping.
-/

namespace Symbolizer

structure Module where
  path : String
  base : Address
  /-- The first address behind the module. -/
  limit : Address
  deriving DecidableEq, Repr

def Module.contains (module : Module) (address : Address) : Bool :=
  module.base ≤ address && address < module.limit

structure ModuleMap where
  owner? : Address → Option Module

abbrev Modules := List Module

namespace Modules

/-- The first module in the list that contains the address. -/
def owner? (modules : Modules) (address : Address) : Option Module :=
  modules.find? (·.contains address)

def toMap (modules : Modules) : ModuleMap :=
  ⟨modules.owner?⟩

end Modules

instance : Coe Modules ModuleMap := ⟨Modules.toMap⟩

structure Mapping where
  low : UInt64
  high : UInt64
  permissions : String
  /-- Absent for anonymous mappings and those with a name in brackets. -/
  pathname : Option String
  deriving DecidableEq, Repr

namespace Mapping

def isExecutable (mapping : Mapping) : Bool :=
  mapping.permissions.toList.contains 'x'

def word? (radix : Nat) (digits : List Char) : Option UInt64 :=
  match Text.readUnsigned radix 64 digits with
  | .ok n => some (UInt64.ofNat n)
  | .error _ => none

def splitAt? (separator : Char) (text : List Char) : Option (List Char × List Char) :=
  match text.dropWhile (· != separator) with
  | [] => none
  | _ :: after => some (text.takeWhile (· != separator), after)

def isBracketed (text : List Char) : Bool :=
  text.head? == some '[' && text.getLast? == some ']'

def pathnameOf (rest : List (List Char)) : Option String :=
  let text := Text.joinWith [' '] rest
  if text.isEmpty || isBracketed text then none else some (String.ofList text)

/-- A line `low-high permissions offset device inode pathname`. The words of the pathname are joined
by single spaces. -/
def parse? (line : List Char) : Option Mapping := do
  match Text.words line with
  | bounds :: permissions :: offset :: _ :: inode :: rest =>
    let (low, high) ← splitAt? '-' bounds
    let low ← word? 16 low
    let high ← word? 16 high
    let _ ← word? 16 offset
    let _ ← word? 10 inode
    return ⟨low, high, String.ofList permissions, pathnameOf rest⟩
  | _ => none

end Mapping

structure Extent where
  path : String
  low : UInt64
  high : UInt64
  executable : Bool
  deriving DecidableEq, Repr

namespace Extent

def widen (extent : Extent) (mapping : Mapping) : Extent :=
  { extent with
    low := if mapping.low < extent.low then mapping.low else extent.low
    high := if extent.high < mapping.high then mapping.high else extent.high
    executable := extent.executable || mapping.isExecutable }

def insert (mapping : Mapping) (path : String) : List Extent → List Extent
  | [] => [⟨path, mapping.low, mapping.high, mapping.isExecutable⟩]
  | extent :: rest =>
    if path = extent.path then extent.widen mapping :: rest
    else if path < extent.path then
      ⟨path, mapping.low, mapping.high, mapping.isExecutable⟩ :: extent :: rest
    else extent :: insert mapping path rest

def toModule (extent : Extent) : Module :=
  ⟨extent.path, ⟨extent.low⟩, ⟨extent.high⟩⟩

end Extent

namespace Modules

def extents (mappings : List Mapping) : List Extent :=
  mappings.foldl (fun extents mapping =>
    match mapping.pathname with
    | some path => Extent.insert mapping path extents
    | none => extents) []

/-- Modules in the order of their bases; equal bases stay in the order of the paths. -/
def ofMappings (mappings : List Mapping) : Modules :=
  (((extents mappings).filter Extent.executable).map Extent.toModule).mergeSort
    fun a b => a.base.value ≤ b.base.value

/-- Lines that are no mappings have no effect. -/
def ofMaps (text : String) : Modules :=
  ofMappings ((Text.lines text.toList).filterMap Mapping.parse?)

end Modules

end Symbolizer
