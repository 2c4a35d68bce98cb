import Symbolizer.Mangling.V0.Reader
import Symbolizer.Text.Quoted

/-!
Writing while reading. A symbol is read from left to right and written at once; where it cannot be
read the cause is written, and a question mark for everything that should follow. References back
are followed only when something is written. There is a limit on the size of what is written, and
going beyond it ends the writing for good.
-/

namespace Symbolizer.Mangling.V0

structure State where
  /-- Where to read on, or the fault that made further reading pointless. -/
  place : Except Fault Place
  /-- Nothing is written while a symbol is only checked. -/
  silent : Bool
  written : String
  /-- How many bytes may still be written. -/
  room : Nat
  /-- Lifetimes bound by the binders around the current place. -/
  boundLifetimes : Nat
  /-- Whether the last trait path left its angle brackets open. -/
  bracketsOpen : Bool

/-- Failure means that there is no room left. -/
abbrev Write := ExceptT Unit (StateM State)

def maxSize : Nat := 1000000

namespace Write

def text (piece : String) : Write Unit := do
  let state ← get
  if state.silent then return
  if state.room < piece.utf8ByteSize then throw ()
  set { state with
    written := state.written ++ piece
    room := state.room - piece.utf8ByteSize }

def chars : List Char → Write Unit
  | [] => return
  | c :: rest => do
    text c.toString
    chars rest

/-- Goes on with what a reader yields, and with nothing once reading has failed. -/
def reading (read : Read α) (next : α → Write Unit) : Write Unit := do
  match (← get).place with
  | .error _ => text "?"
  | .ok place =>
    match read.run place with
    | .ok (value, place) => do
      modify fun state => { state with place := .ok place }
      next value
    | .error fault => do
      text fault.message
      modify fun state => { state with place := .error fault }

def invalid : Write Unit := do
  text Fault.invalid.message
  modify fun state => { state with place := .error .invalid }

def eat (c : Char) : Write Bool := do
  match (← get).place with
  | .error _ => return false
  | .ok place =>
    match (Read.eat c).run place with
    | .ok (found, place) => do
      modify fun state => { state with place := .ok place }
      return found
    | .error _ => return false

def hasFailed : Write Bool := do
  match (← get).place with
  | .error _ => return true
  | .ok _ => return false

def leave : Write Unit :=
  modify fun state =>
    { state with place := state.place.map fun place => { place with depth := place.depth - 1 } }

def silently (write : Write Unit) : Write Unit := do
  let silent := (← get).silent
  modify fun state => { state with silent := true }
  write
  modify fun state => { state with silent }

def backReference (symbol : List Char) (write : Write Unit) : Write Unit :=
  reading (Read.backReference symbol) fun target => do
    let state ← get
    if state.silent then return
    modify fun state => { state with place := .ok target }
    write
    modify fun next => { next with place := state.place }

def elements (separator : String) (element : Write Unit) : Nat → Nat → Write Nat
  | 0, count => return count
  | fuel + 1, count => do
    if ← hasFailed then return count
    if ← eat 'E' then return count
    if 0 < count then text separator
    element
    elements separator element fuel (count + 1)

/-- Every element takes at least one character. -/
def list (separator : String) (element : Write Unit) : Write Nat := do
  match (← get).place with
  | .error _ => return 0
  | .ok place => elements separator element (place.rest.length + 1) 0

def nat (n : Nat) : Write Unit :=
  text (Text.decimal n)

/-- The placeholder is zero; other numbers count bound lifetimes from the innermost out. -/
def lifetime (index : Nat) : Write Unit := do
  let state ← get
  if state.silent then return
  text "'"
  if index = 0 then text "_"
  else if state.boundLifetimes < index then invalid
  else
    let number := state.boundLifetimes - index
    if number < 26 then text (Char.ofNat ('a'.toNat + number)).toString
    else
      text "_"
      nat number

def bindLifetimes : Nat → Nat → Write Unit
  | 0, _ => return
  | left + 1, done => do
    if 0 < done then text ", "
    modify fun state => { state with boundLifetimes := state.boundLifetimes + 1 }
    lifetime 1
    bindLifetimes left (done + 1)

/-- Lifetimes bound by a binder are visible in what it binds. The limit on size ends longer binders
early. -/
def underBinder (write : Write Unit) : Write Unit :=
  reading (Read.optionalInteger62 'G') fun count => do
    let state ← get
    if state.silent then write
    else
      if 0 < count then
        text "for<"
        bindLifetimes (min count maxSize) 0
        text "> "
      write
      modify fun next => { next with boundLifetimes := state.boundLifetimes }

end Write

end Symbolizer.Mangling.V0
