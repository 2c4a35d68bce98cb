import Symbolizer.Dwarf.Forest
import Symbolizer.Proofs.Dwarf.Reading

/-!
Readers move forward. None leaves more bytes than it finds, and whatever begins with a LEB128 number,
as every entry does, leaves fewer.
-/

namespace Symbolizer.Dwarf.Read

variable {α β : Type}

def Forward (read : Read α) : Prop :=
  ∀ cursor value next, read.run cursor = .ok (value, next) → next.rest.length ≤ cursor.rest.length

variable {read : Read α} {andThen : α → Read β}

@[simp]
theorem forward_pure (value : β) : Forward (pure value) := by
  intro cursor given next ran
  obtain ⟨_, same⟩ := run_pure.1 ran
  exact same ▸ Nat.le_refl _

@[simp]
theorem forward_throw (fault : Fault) : Forward (throw fault : Read β) := by
  intro cursor value next ran
  cases ran

@[simp]
theorem forward_bind (first : Forward read) (second : ∀ value, Forward (andThen value)) :
    Forward (read >>= andThen) := by
  intro cursor value next ran
  obtain ⟨held, place, before, after⟩ := run_bind.1 ran
  exact Nat.le_trans (second held _ _ _ after) (first _ _ _ before)

@[simp]
theorem forward_map {f : α → β} (first : Forward read) : Forward (f <$> read) := by
  rw [map_eq_pure_bind]
  exact forward_bind first fun value => forward_pure _

@[simp]
theorem forward_ite {condition : Prop} [Decidable condition] {yes no : Read β}
    (first : Forward yes) (second : Forward no) : Forward (if condition then yes else no) := by
  split
  · exact first
  · exact second

theorem forward_unless {condition : Prop} [Decidable condition] {fault : Fault}
    {go_on : Unit → Read β} (rest : Forward (go_on ())) :
    Forward (if condition then do let held ← throw fault; go_on held else go_on ()) :=
  forward_ite (forward_bind (forward_throw fault) fun _ => rest) rest

theorem byte_consumes {cursor next : Cursor} {value : UInt8} (ran : byte.run cursor = .ok (value, next)) :
    next.rest.length < cursor.rest.length := by
  simp only [StateT.run, byte] at ran
  split at ran
  next => cases ran
  next first rest found =>
    cases ran
    rw [found]
    exact Nat.lt_succ_self _

@[simp]
theorem forward_byte : Forward byte :=
  fun _ _ _ ran => Nat.le_of_lt (byte_consumes ran)

@[simp]
theorem forward_take (count : Nat) : Forward (take count) := by
  intro cursor value next ran
  simp only [StateT.run, take] at ran
  split at ran
  next =>
    cases ran
    simp only [List.length_drop]
    omega
  next => cases ran

@[simp]
theorem forward_skip (count : Nat) : Forward (skip count) :=
  forward_bind (forward_take count) fun _ => forward_pure ()

@[simp]
theorem forward_number (width : Nat) : Forward (number width) :=
  forward_bind (forward_take width) fun _ => forward_pure _

@[simp]
theorem forward_cstring : Forward cstring := by
  intro cursor value next ran
  simp only [StateT.run, cstring] at ran
  split at ran
  next text found =>
    cases ran
    simp only [List.length_drop]
    omega
  next => cases ran

@[simp]
theorem forward_unsignedGroups (left : Nat) : Forward (unsignedGroups left) := by
  induction left with
  | zero => exact forward_throw _
  | succ left ih =>
    refine forward_bind forward_byte fun group => forward_unless ?_
    exact forward_ite (forward_pure _) (forward_bind ih fun _ => forward_pure _)

@[simp]
theorem forward_uleb : Forward uleb :=
  forward_unsignedGroups 10

theorem uleb_consumes {cursor next : Cursor} {value : Nat} (ran : uleb.run cursor = .ok (value, next)) :
    next.rest.length < cursor.rest.length := by
  obtain ⟨group, place, first, rest⟩ := run_bind.1 ran
  refine Nat.lt_of_le_of_lt ?_ (byte_consumes first)
  have forward : Forward (do
      if 9 = 0 ∧ group ≠ 0 ∧ group ≠ 1 then throw .badUnsignedLeb128
      if group < 0x80 then return group.toNat
      return group.toNat % 0x80 + 0x80 * (← unsignedGroups 9)) := by
    refine forward_unless ?_
    exact forward_ite (forward_pure _) (forward_bind (forward_unsignedGroups _) fun _ => forward_pure _)
  exact forward _ _ _ rest

@[simp]
theorem forward_signedGroups (left : Nat) : Forward (signedGroups left) := by
  induction left with
  | zero => exact forward_throw _
  | succ left ih =>
    refine forward_bind forward_byte fun group => forward_unless ?_
    exact forward_ite (forward_pure _) (forward_bind ih fun _ => forward_pure _)

theorem forward_uleb16 : Forward uleb16 := by
  refine forward_bind forward_byte fun first => forward_ite (forward_pure _) ?_
  refine forward_bind forward_byte fun second => forward_ite (forward_pure _) ?_
  exact forward_bind forward_byte fun third => forward_unless (forward_pure _)

@[simp]
theorem forward_sleb : Forward sleb :=
  forward_signedGroups 10

@[simp]
theorem forward_address (encoding : Encoding) : Forward (address encoding) :=
  forward_number _

@[simp]
theorem forward_offset (format : Format) : Forward (offset format) :=
  forward_number _

/-! Attributes and entries. -/

@[simp]
theorem forward_pass (count : Nat) : Forward (pass count) :=
  forward_bind (forward_skip count) fun _ => forward_pure _

@[simp]
theorem forward_blockOf {length : Read Nat} (first : Forward length) : Forward (blockOf length) :=
  forward_bind first fun count => forward_bind (forward_take count) fun _ => forward_pure _

@[simp]
theorem forward_plainNumber (encoding : Encoding) (name width : Nat) :
    Forward (plainNumber encoding name width) := by
  refine forward_bind (forward_number width) fun value => ?_
  exact forward_pure _

theorem forward_directValue (encoding : Encoding) (name : Nat) (implicit : Option Int) (form : Nat) :
    Forward (directValue encoding name implicit form) := by
  unfold directValue
  split
  all_goals try simp
  split
  · exact forward_pure _
  · exact forward_throw _

theorem forward_throughIndirect (encoding : Encoding) (name : Nat) (implicit : Option Int)
    (fuel form : Nat) : Forward (throughIndirect encoding name implicit fuel form) := by
  induction fuel generalizing form with
  | zero => exact forward_throw _
  | succ fuel ih =>
    rw [throughIndirect]
    refine forward_ite (forward_bind forward_uleb16 fun next => ih next) ?_
    exact forward_directValue _ _ _ _

theorem forward_attributeOf (encoding : Encoding) (spec : AttributeSpec) :
    Forward (attributeOf encoding spec) := by
  refine forward_bind (fun cursor value next ran => ?_) fun place => ?_
  · cases ran
    exact Nat.le_refl _
  · exact forward_bind (forward_throughIndirect _ _ _ _ _) fun _ => forward_pure _

end Symbolizer.Dwarf.Read

namespace Symbolizer.Dwarf

open Read

theorem decodeAttributes_forward {encoding : Encoding} {specs : List AttributeSpec} {cursor stop : Cursor}
    (ends : (Entry.decodeAttributes encoding specs cursor).2 = .ok stop) :
    stop.rest.length ≤ cursor.rest.length := by
  induction specs generalizing cursor with
  | nil =>
    cases ends
    exact Nat.le_refl _
  | cons spec specs ih =>
    rw [Entry.decodeAttributes] at ends
    split at ends
    next => cases ends
    next attr next read =>
      exact Nat.le_trans (ih ends) (forward_attributeOf _ _ _ _ _ read)

namespace CompilationUnit

variable {unit : CompilationUnit} {cursor : Cursor}

theorem item_consumes {item : Entry.Item} (found : unit.item cursor = .ok item) :
    match item with
    | .null next => next.rest.length < cursor.rest.length
    | .entry entry => ∀ stop, entry.stop = .ok stop → stop.rest.length < cursor.rest.length := by
  obtain ⟨⟨code, place⟩, read, rest⟩ := bind_eq_ok.1 found
  have consumed := uleb_consumes read
  dsimp only at rest
  split at rest
  next =>
    cases rest
    exact consumed
  next =>
    split at rest
    next => cases rest
    next abbreviation known =>
      cases rest
      intro stop ends
      exact Nat.lt_of_le_of_lt (decodeAttributes_forward ends) consumed

end CompilationUnit

end Symbolizer.Dwarf
