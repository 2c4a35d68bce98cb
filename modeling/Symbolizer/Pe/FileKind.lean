import Symbolizer.Bytes

/-!
The kind of a binary file, told from its first sixteen bytes. A file with a DOS header is a PE image
when the headers behind it carry the PE signature and one of the two optional-header numbers.
-/

namespace Symbolizer.Pe

inductive FileKind where
  | archive
  | coff
  | coffBig
  | coffImport
  | dyldCache
  | elf32
  | elf64
  | machO32
  | machO64
  | machOFat32
  | machOFat64
  | pe32
  | pe64
  | xcoff32
  | xcoff64
  deriving DecidableEq, Repr

def FileKind.label : FileKind → String
  | .archive => "Archive"
  | .coff => "Coff"
  | .coffBig => "CoffBig"
  | .coffImport => "CoffImport"
  | .dyldCache => "DyldCache"
  | .elf32 => "Elf32"
  | .elf64 => "Elf64"
  | .machO32 => "MachO32"
  | .machO64 => "MachO64"
  | .machOFat32 => "MachOFat32"
  | .machOFat64 => "MachOFat64"
  | .pe32 => "Pe32"
  | .pe64 => "Pe64"
  | .xcoff32 => "Xcoff32"
  | .xcoff64 => "Xcoff64"

inductive KindFault where
  | noMagic
  | unknownDosFile
  | unknownAnonymousObject
  | unknownMagic
  deriving DecidableEq, Repr

def KindFault.message : KindFault → String
  | .noMagic => "Could not read file magic"
  | .unknownDosFile => "Unknown MS-DOS file"
  | .unknownAnonymousObject => "Unknown anon object file"
  | .unknownMagic => "Unknown file magic"

def dosHeaderSize : Nat := 64

def ntHeaderSize : Nat := 24

def optionalHeaderSize : FileKind → Nat
  | .pe64 => 112
  | _ => 96

def optionalMagic? (data : Bytes) : Option Nat := do
  let dos ← data.slice? 0 dosHeaderSize
  guard (dos.take 2 == [0x4d, 0x5a])
  let headers ← data.slice? (Bytes.littleEndian (dos.drop 60)) (ntHeaderSize + 96)
  guard (headers.take 4 == [0x50, 0x45, 0, 0])
  return Bytes.littleEndian ((headers.drop ntHeaderSize).take 2)

def anonymousHeaderSize : Nat := 32

def bigObjectClass : Bytes :=
  [0xc7, 0xa1, 0xba, 0xd1, 0xee, 0xba, 0xa9, 0x4b, 0xaf, 0x20, 0xfa, 0xf6, 0x6a, 0xa4, 0xdc, 0xb8]

def coffMachines : List Bytes :=
  [[0xc4, 0x01], [0x64, 0xaa], [0x41, 0xa6], [0x4e, 0xa6], [0x4c, 0x01], [0x64, 0x86],
    [0xf0, 0x01], [0xf1, 0x01], [0xf2, 0x01]]

def FileKind.ofDosFile (data : Bytes) : Except KindFault FileKind :=
  match optionalMagic? data with
  | some 0x10b => .ok .pe32
  | some 0x20b => .ok .pe64
  | _ => .error .unknownDosFile

def FileKind.ofAnonymousObject (data : Bytes) : Except KindFault FileKind :=
  match data.slice? 0 anonymousHeaderSize with
  | some header =>
    if (header.drop 12).take 16 == bigObjectClass then .ok .coffBig
    else .error .unknownAnonymousObject
  | none => .error .unknownAnonymousObject

def FileKind.of (data : Bytes) : Except KindFault FileKind :=
  if data.length < 16 then .error .noMagic
  else
    let starts (magic : Bytes) : Bool := magic.isPrefixOf data
    if starts [0x21, 0x3c, 0x61, 0x72, 0x63, 0x68, 0x3e, 0x0a]
      || starts [0x21, 0x3c, 0x74, 0x68, 0x69, 0x6e, 0x3e, 0x0a]
      || starts [0x3c, 0x62, 0x69, 0x67, 0x61, 0x66, 0x3e, 0x0a] then .ok .archive
    else if starts [0x64, 0x79, 0x6c, 0x64, 0x5f, 0x76, 0x31, 0x20] then .ok .dyldCache
    else if starts [0x7f, 0x45, 0x4c, 0x46, 1] then .ok .elf32
    else if starts [0x7f, 0x45, 0x4c, 0x46, 2] then .ok .elf64
    else if starts [0xfe, 0xed, 0xfa, 0xce] || starts [0xce, 0xfa, 0xed, 0xfe] then .ok .machO32
    else if starts [0xfe, 0xed, 0xfa, 0xcf] || starts [0xcf, 0xfa, 0xed, 0xfe] then .ok .machO64
    else if starts [0xca, 0xfe, 0xba, 0xbe] then .ok .machOFat32
    else if starts [0xca, 0xfe, 0xba, 0xbf] then .ok .machOFat64
    else if starts [0x4d, 0x5a] then FileKind.ofDosFile data
    else if coffMachines.any starts then .ok .coff
    else if starts [0, 0, 0xff, 0xff, 0, 0] then .ok .coffImport
    else if starts [0, 0, 0xff, 0xff, 2, 0] then FileKind.ofAnonymousObject data
    else if starts [0x01, 0xdf] then .ok .xcoff32
    else if starts [0x01, 0xf7] then .ok .xcoff64
    else .error .unknownMagic

end Symbolizer.Pe
