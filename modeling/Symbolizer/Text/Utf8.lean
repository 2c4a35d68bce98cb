/-!
UTF-8 both ways. Decoding never fails: every longest piece that starts like a character but does
not finish as one becomes a single replacement character, and decoding goes on with the byte that
spoiled it. Places in a text are counted in bytes, and a text is cut only between characters.
-/

namespace Symbolizer.Text.Utf8

def replacement : Char := '\ufffd'

/-- An unfinished character: the bits so far, the bytes still owed, and the bounds of the next one. -/
structure Pending where
  bits : Nat
  owed : Nat
  low : Nat
  high : Nat
  deriving DecidableEq, Repr

/-- What a byte between characters means: a whole character, the start of one, or nothing. -/
inductive Lead where
  | whole (c : Char)
  | start (pending : Pending)
  | invalid
  deriving DecidableEq, Repr

def lead (byte : UInt8) : Lead :=
  let b := byte.toNat
  if b < 0x80 then .whole (Char.ofNat b)
  else if 0xc2 ≤ b ∧ b ≤ 0xdf then .start ⟨b - 0xc0, 1, 0x80, 0xbf⟩
  else if b = 0xe0 then .start ⟨0, 2, 0xa0, 0xbf⟩
  else if b = 0xed then .start ⟨0xd, 2, 0x80, 0x9f⟩
  else if 0xe1 ≤ b ∧ b ≤ 0xef then .start ⟨b - 0xe0, 2, 0x80, 0xbf⟩
  else if b = 0xf0 then .start ⟨0, 3, 0x90, 0xbf⟩
  else if 0xf1 ≤ b ∧ b ≤ 0xf3 then .start ⟨b - 0xf0, 3, 0x80, 0xbf⟩
  else if b = 0xf4 then .start ⟨4, 3, 0x80, 0x8f⟩
  else .invalid

def Pending.accepts (p : Pending) (byte : UInt8) : Bool :=
  p.low ≤ byte.toNat && byte.toNat ≤ p.high

def Pending.extend (p : Pending) (byte : UInt8) : Pending :=
  ⟨p.bits * 64 + (byte.toNat - 0x80), p.owed - 1, 0x80, 0xbf⟩

mutual

def decode : List UInt8 → List Char
  | [] => []
  | byte :: rest =>
    match lead byte with
    | .whole c => c :: decode rest
    | .start pending => decodeTail pending rest
    | .invalid => replacement :: decode rest

def decodeTail (p : Pending) : List UInt8 → List Char
  | [] => [replacement]
  | byte :: rest =>
    if p.accepts byte then
      let next := p.extend byte
      if next.owed = 0 then Char.ofNat next.bits :: decode rest else decodeTail next rest
    else
      match lead byte with
      | .whole c => replacement :: c :: decode rest
      | .start pending => replacement :: decodeTail pending rest
      | .invalid => replacement :: replacement :: decode rest

end

def toText (bytes : List UInt8) : String :=
  String.ofList (decode bytes)

def encode (cs : List Char) : List UInt8 :=
  cs.flatMap String.utf8EncodeChar

def size (cs : List Char) : Nat :=
  (encode cs).length

/-- The place that leaves so many bytes behind it; nothing when the text has fewer. -/
def placeFromEnd? (cs : List Char) (count : Nat) : Option Nat :=
  if count ≤ size cs then some (size cs - count) else none

/-- Whether a character starts at a place among the bytes, or the text ends there. -/
def isBoundary (cs : List Char) (place : Nat) : Bool :=
  match (encode cs)[place]? with
  | some byte => decide byte.IsUTF8FirstByte
  | none => place == size cs

/-- The text from a place among its bytes on; nothing when the place lies inside a character or behind
the end. -/
def from? : List Char → Nat → Option (List Char)
  | cs, 0 => some cs
  | [], _ + 1 => none
  | c :: rest, place + 1 =>
    if c.utf8Size ≤ place + 1 then from? rest (place + 1 - c.utf8Size) else none

/-- Whether all bytes of a text, each taken for a character, are of a class. -/
def everyByte (isMember : Char → Bool) (cs : List Char) : Bool :=
  (encode cs).all fun byte => isMember (Char.ofUInt8 byte)

def ofText (text : String) : List UInt8 :=
  encode text.toList

/-- Exact decoding: succeeds only on bytes that some text encodes to. -/
def toText? (bytes : List UInt8) : Option String :=
  let cs := decode bytes
  if encode cs = bytes then some (String.ofList cs) else none

end Symbolizer.Text.Utf8
