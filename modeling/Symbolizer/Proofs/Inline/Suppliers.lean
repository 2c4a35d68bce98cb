import Symbolizer.Proofs.Inline.Faults

/-!
The entries that function names are taken from. A scope without a name takes that of an entry it links
to, and which entry that is depends on the entries alone and not on how names are made. So a name is what
the setting chooses from the names of its supplier, under every setting from those of the same one, and a
walk that fails under one setting fails under all.
-/

namespace Symbolizer

open Dwarf (CompilationUnit Entry Forest)

theorem Naming.choose_eq_none_iff (naming : Naming) (names : Naming.Names) :
    naming.choose names = none ↔ names = ⟨none, none, none⟩ := by
  obtain ⟨linkage, mips, plain⟩ := names
  cases linkage <;> cases mips <;> cases plain <;> simp [Naming.choose] <;> split <;> simp

namespace NameSource

structure Supplier where
  unit : CompilationUnit
  entry : Entry
  names : Naming.Names
  named : names ≠ ⟨none, none, none⟩

def lender? (source : NameSource) (supplierOf : CompilationUnit → Entry → Except Fault (Option Supplier))
    (unit : CompilationUnit) (entry : Entry) (link : Nat) : Except Fault (Option Supplier) := do
  match ← source.follow? unit entry link with
  | none => return none
  | some (unit, entry) => supplierOf unit entry

/-- The entry itself when it carries any name, else the supplier over a link. -/
def selfOrLender? (source : NameSource)
    (supplierOf : CompilationUnit → Entry → Except Fault (Option Supplier)) (unit : CompilationUnit)
    (entry : Entry) : Except Fault (Option Supplier) := do
  let names ← source.names unit entry
  if named : names ≠ ⟨none, none, none⟩ then return some ⟨unit, entry, names, named⟩
  match ← source.lender? supplierOf unit entry Dwarf.Name.abstractOrigin with
  | some supplier => return some supplier
  | none => source.lender? supplierOf unit entry Dwarf.Name.specification

def supplierWithin (source : NameSource) :
    Nat → CompilationUnit → Entry → Except Fault (Option Supplier)
  | 0 => source.selfOrLender? fun _ _ => .ok none
  | links + 1 => source.selfOrLender? (source.supplierWithin links)

def supplier? (source : NameSource) (unit : CompilationUnit) (entry : Entry) :
    Except Fault (Option Supplier) :=
  source.supplierWithin maxLinks unit entry

def under (source : NameSource) (naming : Naming) : NameSource :=
  { source with naming }

def nameOf (naming : Naming) (supplier : Option Supplier) : Option SymbolName :=
  supplier.bind fun supplier => naming.choose supplier.names

variable {source : NameSource} {naming : Naming}
  {nameAt : CompilationUnit → Entry → Except Fault (Option SymbolName)}
  {supplierAt : CompilationUnit → Entry → Except Fault (Option Supplier)}

theorem nameOf_supplier (naming : Naming) (supplier : Supplier) :
    ∃ name, naming.choose supplier.names = some name := by
  apply Option.ne_none_iff_exists'.1
  intro none
  exact supplier.named ((naming.choose_eq_none_iff supplier.names).1 none)

theorem linked?_under
    (made : ∀ unit entry, nameAt unit entry = (supplierAt unit entry).map (nameOf naming))
    (unit : CompilationUnit) (entry : Entry) (link : Nat) :
    (source.under naming).linked? nameAt unit entry link =
      (source.lender? supplierAt unit entry link).map (nameOf naming) := by
  have same : (source.under naming).follow? unit entry link = source.follow? unit entry link := rfl
  unfold linked? lender?
  rw [same]
  cases source.follow? unit entry link with
  | error fault => rfl
  | ok found =>
    cases found with
    | none => rfl
    | some pair => exact made pair.1 pair.2

theorem ownOrBorrowed?_under
    (made : ∀ unit entry, nameAt unit entry = (supplierAt unit entry).map (nameOf naming))
    (unit : CompilationUnit) (entry : Entry) :
    (source.under naming).ownOrBorrowed? nameAt unit entry =
      (source.selfOrLender? supplierAt unit entry).map (nameOf naming) := by
  have same : (source.under naming).names unit entry = source.names unit entry := rfl
  have setting : (source.under naming).naming = naming := rfl
  unfold ownOrBorrowed? selfOrLender?
  rw [same, setting]
  cases source.names unit entry with
  | error fault => rfl
  | ok names =>
    simp only [bind, Except.bind, linked?_under made]
    by_cases named : names ≠ ⟨none, none, none⟩
    · obtain ⟨name, chosen⟩ := nameOf_supplier naming ⟨unit, entry, names, named⟩
      rw [dif_pos named]
      simp only at chosen
      simp [chosen, nameOf, Except.map, pure, Except.pure]
    · have unnamed := (naming.choose_eq_none_iff names).2 (not_not.1 named)
      rw [dif_neg named, unnamed]
      cases source.lender? supplierAt unit entry Dwarf.Name.abstractOrigin with
      | error fault => rfl
      | ok found =>
        cases found with
        | none => rfl
        | some supplier =>
          obtain ⟨name, chosen⟩ := nameOf_supplier naming supplier
          simp [Except.map, nameOf, chosen, pure, Except.pure]

/-- Names are made of suppliers, which the setting has no part in. -/
theorem functionName?_under (source : NameSource) (naming : Naming) (unit : CompilationUnit)
    (entry : Entry) :
    (source.under naming).functionName? unit entry =
      (source.supplier? unit entry).map (nameOf naming) := by
  have within (links : Nat) : ∀ unit entry, (source.under naming).nameWithin links unit entry =
      (source.supplierWithin links unit entry).map (nameOf naming) := by
    induction links with
    | zero => exact ownOrBorrowed?_under fun _ _ => rfl
    | succ links ih => exact ownOrBorrowed?_under ih
  exact within maxLinks unit entry

theorem names_of_selfOrLender {unit : CompilationUnit} {entry : Entry} {supplier : Supplier}
    (carried : ∀ unit entry supplier, supplierAt unit entry = .ok (some supplier) →
      source.names supplier.unit supplier.entry = .ok supplier.names)
    (found : source.selfOrLender? supplierAt unit entry = .ok (some supplier)) :
    source.names supplier.unit supplier.entry = .ok supplier.names := by
  have lent {link : Nat} (lender : source.lender? supplierAt unit entry link = .ok (some supplier)) :
      source.names supplier.unit supplier.entry = .ok supplier.names := by
    obtain ⟨target, _, behind⟩ := bind_eq_ok.1 lender
    cases target with
    | none => cases behind
    | some pair => exact carried pair.1 pair.2 supplier behind
  obtain ⟨names, read, rest⟩ := bind_eq_ok.1 found
  split at rest
  next named =>
    cases rest
    exact read
  next =>
    obtain ⟨origin, first, rest⟩ := bind_eq_ok.1 rest
    cases origin with
    | some held =>
      cases rest
      exact lent first
    | none => exact lent rest

theorem names_of_supplier {unit : CompilationUnit} {entry : Entry} {supplier : Supplier}
    (found : source.supplier? unit entry = .ok (some supplier)) :
    source.names supplier.unit supplier.entry = .ok supplier.names := by
  have within (links : Nat) : ∀ unit entry supplier,
      source.supplierWithin links unit entry = .ok (some supplier) →
        source.names supplier.unit supplier.entry = .ok supplier.names := by
    induction links with
    | zero =>
      intro unit entry supplier found
      refine names_of_selfOrLender (fun _ _ _ wrong => ?_) found
      cases wrong
    | succ links ih =>
      intro unit entry supplier found
      exact names_of_selfOrLender ih found
  exact within maxLinks unit entry supplier found

end NameSource

namespace ScopeSource

open NameSource (Supplier nameOf)

def under (source : ScopeSource) (naming : Naming) : ScopeSource :=
  { source with naming }

def Supplies (source : ScopeSource) (target : UInt64) (supplier : Supplier) : Prop :=
  ∃ forest place entry, source.unit.forest (source.enters target) = .ok forest ∧
    forest.entryAt? place = some (entry, true) ∧ isScope entry = true ∧
    source.supplier? source.unit entry = .ok (some supplier)

def SameSupplier (supplies : Supplier → Prop) (one other : Naming) (first second : SymbolName) : Prop :=
  ∃ supplier, supplies supplier ∧ one.choose supplier.names = some first ∧
    other.choose supplier.names = some second

/-- Frames at one place, with names from one supplier or none. -/
structure SameFrame (supplies : Supplier → Prop) (one other : Naming) (first second : LogicalFrame) :
    Prop where
  location : first.location = second.location
  function : Option.Rel (SameSupplier supplies one other) first.function second.function

variable {source : ScopeSource} {one other : Naming} {target : UInt64} {forest : Forest}
  {supplies : Supplier → Prop}

def originOf (source : ScopeSource) (entry : Entry) (subprogram : Bool) :
    Except Fault (Option Supplier × Option SourceLocation) := do
  let supplier ← source.supplier? source.unit entry
  let callSite := if subprogram then .ok none else source.callSite? entry
  return (supplier, ← callSite)

theorem scopeOf_under (source : ScopeSource) (naming : Naming) (entry : Entry) (subprogram : Bool) :
    (source.under naming).scopeOf entry subprogram =
      (source.originOf entry subprogram).map fun origin =>
        ⟨nameOf naming origin.1, origin.2, subprogram⟩ := by
  have named : (source.under naming).functionName? (source.under naming).unit entry =
      (source.supplier? source.unit entry).map (nameOf naming) :=
    source.functionName?_under naming source.unit entry
  have placed : (source.under naming).callSite? entry = source.callSite? entry := rfl
  unfold scopeOf originOf
  rw [named, placed]
  cases source.supplier? source.unit entry with
  | error fault => rfl
  | ok supplier =>
    cases subprogram with
    | true => rfl
    | false => cases source.callSite? entry <;> rfl

theorem nameOf_rel {found : Option Supplier} (known : ∀ supplier ∈ found, supplies supplier) :
    Option.Rel (SameSupplier supplies one other) (nameOf one found) (nameOf other found) := by
  cases found with
  | none => exact .none
  | some supplier =>
    obtain ⟨first, chosen⟩ := NameSource.nameOf_supplier one supplier
    obtain ⟨second, chosen_too⟩ := NameSource.nameOf_supplier other supplier
    simp only [nameOf, Option.bind_some, chosen, chosen_too]
    exact .some ⟨supplier, known supplier rfl, chosen, chosen_too⟩

/-! The walk under two settings. -/

theorem Breaks.under (breaks : (source.under one).Breaks forest) : (source.under other).Breaks forest := by
  induction breaks with
  | unread fault => exact .unread fault
  | inside _ ih => exact .inside ih
  | behind goes_on passes _ ih => exact .behind goes_on passes ih
  | @scope entry children next fault goes_on listed fails =>
    rw [scopeOf_under] at fails
    cases read : source.originOf entry (isSubprogram entry) with
    | error cause => exact .scope goes_on listed (by rw [scopeOf_under, read]; rfl)
    | ok origin =>
      rw [read] at fails
      cases fails

theorem walkFails_under (fails : (source.under one).WalkFails target) :
    (source.under other).WalkFails target := by
  cases fails with
  | root unread => exact .root unread
  | entries read breaks => exact .entries read breaks.under

theorem forall₂_of_places {α β γ : Type} {left : α → β → Prop} {right : α → γ → Prop} {both : β → γ → Prop}
    (meet : ∀ place first second, left place first → right place second → both first second)
    {places : List α} {firsts : List β} {seconds : List γ} (lefts : List.Forall₂ left places firsts)
    (rights : List.Forall₂ right places seconds) : List.Forall₂ both firsts seconds := by
  induction lefts generalizing seconds with
  | nil =>
    cases rights
    exact .nil
  | cons held _ ih =>
    cases rights with
    | cons held_too rest => exact .cons (meet _ _ _ held held_too) (ih rest)

structure SameScope (supplies : Supplier → Prop) (one other : Naming) (first second : Scope) : Prop where
  callSite : first.callSite = second.callSite
  isSubprogram : first.isSubprogram = second.isSubprogram
  function : Option.Rel (SameSupplier supplies one other) first.function second.function

theorem sameScope_of_standsAt {place : Dwarf.Place} {first second : Scope}
    (read : source.unit.forest (source.enters target) = .ok forest)
    (stands : (source.under one).StandsAt forest place first)
    (stands_too : (source.under other).StandsAt forest place second) :
    SameScope (source.Supplies target) one other first second := by
  obtain ⟨entry, here, listed, made⟩ := stands
  obtain ⟨again, here_too, _, made_too⟩ := stands_too
  rw [here] at here_too
  cases here_too
  rw [scopeOf_under] at made made_too
  cases origin : source.originOf entry (isSubprogram entry) with
  | error fault =>
    rw [origin] at made
    cases made
  | ok parts =>
    rw [origin] at made made_too
    cases made
    cases made_too
    refine ⟨rfl, rfl, nameOf_rel fun supplier found => ?_⟩
    obtain ⟨held, supplied, rest⟩ := bind_eq_ok.1 origin
    obtain ⟨callSite, _, same⟩ := bind_eq_ok.1 rest
    cases same
    have known : held = some supplier := found
    exact ⟨forest, place, entry, read, here, listed, by rw [supplied, known]⟩

theorem expandChain_under {leaf : Option SourceLocation} {first second : List Scope}
    (same : List.Forall₂ (SameScope supplies one other) first second) :
    List.Forall₂ (SameFrame supplies one other) (expandChain leaf first) (expandChain leaf second) := by
  induction same generalizing leaf with
  | nil => exact .cons ⟨rfl, .none⟩ .nil
  | cons scope _ ih =>
    rw [expandChain, expandChain, scope.isSubprogram, scope.callSite]
    split
    · exact .cons ⟨rfl, scope.function⟩ .nil
    · exact .cons ⟨rfl, scope.function⟩ ih

/-- A walk that succeeds under one setting does so under every other, with the same frames but for the
names. -/
theorem resolve_under (other : Naming) {leaf : Option SourceLocation} {first : List LogicalFrame}
    (resolved : (source.under one).resolve target leaf = .ok first) :
    ∃ second, (source.under other).resolve target leaf = .ok second ∧
      List.Forall₂ (SameFrame (source.Supplies target) one other) first second := by
  have holds : ¬(source.under other).WalkFails target := by
    intro fails
    obtain ⟨fault, wrong⟩ := resolve_error_iff.2 (walkFails_under fails)
    rw [resolved] at wrong
    cases wrong
  cases resolved_too : (source.under other).resolve target leaf with
  | error fault => exact absurd (resolve_error_iff.1 ⟨fault, resolved_too⟩) holds
  | ok second =>
    obtain ⟨forest, scopes, _, read, walked, rfl⟩ := chain_of_resolve resolved
    obtain ⟨again, others, _, read_too, walked_too, rfl⟩ := chain_of_resolve resolved_too
    have decoded : source.unit.forest (source.enters target) = .ok forest := read
    have decoded_too : source.unit.forest (source.enters target) = .ok again := read_too
    rw [decoded] at decoded_too
    cases decoded_too
    have stand := scopesOf_places walked
    have stand_too := scopesOf_places walked_too
    refine ⟨_, rfl, expandChain_under (forall₂_of_places ?_ stand stand_too)⟩
    exact fun _ _ _ stands stands_too => sameScope_of_standsAt decoded stands stands_too

end ScopeSource

end Symbolizer
