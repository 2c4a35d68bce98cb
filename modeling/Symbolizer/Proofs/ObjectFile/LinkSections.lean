import Mathlib
import Symbolizer.ObjectFile

/-!
The two views of a debug link. The link that is held comes from the last link section, and a look-up by name
leads to the first one. They agree exactly when these two sections say the same, and so whenever there is no more
than one.
-/

namespace Symbolizer

def Section.link? (part : Section) : Option DebugLink :=
  part.data.bind DebugLink.parse?

namespace ObjectFile

def linkSections (object : ObjectFile) : List Section :=
  object.sections.filter (·.name == DebugLink.sectionName)

def namedLink? (object : ObjectFile) : Option DebugLink :=
  (object.sectionNamed? DebugLink.sectionName).bind DebugLink.parse?

theorem debugLink?_withSection (object : ObjectFile) (name : String) (data : Bytes) :
    (object.withSection name data).debugLink? =
      if name = DebugLink.sectionName then DebugLink.parse? data else object.debugLink? := by
  rw [debugLink?, withSection, List.foldl_append, List.foldl_cons, List.foldl_nil, linkBehind]
  by_cases link : name = DebugLink.sectionName
  · rw [if_pos link, if_pos (beq_iff_eq.2 link), Option.bind_some]
  · rw [if_neg link, if_neg fun same => link (beq_iff_eq.1 same)]
    rfl

/-! The last link section and the first one. -/

/-- Each link section replaces what those in front of it left. -/
theorem foldl_linkBehind (held : Option DebugLink) (sections : List Section) :
    sections.foldl linkBehind held =
      ((sections.filter (·.name == DebugLink.sectionName)).getLast?.map Section.link?).getD held := by
  induction sections using List.reverseRecOn with
  | nil => rfl
  | append_singleton front added ih =>
    rw [List.foldl_append, List.foldl_cons, List.foldl_nil, List.filter_append, linkBehind]
    by_cases link : (added.name == DebugLink.sectionName) = true
    · rw [if_pos link, List.filter_cons, List.filter_nil, if_pos link, List.getLast?_concat]
      rfl
    · rw [if_neg link, List.filter_cons, List.filter_nil, if_neg link, List.append_nil, ih]

theorem debugLink?_eq_last (object : ObjectFile) :
    object.debugLink? = object.linkSections.getLast?.bind Section.link? := by
  rw [debugLink?, foldl_linkBehind, linkSections]
  cases (object.sections.filter (·.name == DebugLink.sectionName)).getLast? <;> rfl

theorem namedLink?_eq_first (object : ObjectFile) :
    object.namedLink? = object.linkSections.head?.bind Section.link? := by
  rw [namedLink?, sectionNamed?, linkSections, List.head?_filter, Option.bind_assoc]
  rfl

theorem views_agree_iff (object : ObjectFile) :
    object.debugLink? = object.namedLink? ↔ ∀ first last, object.linkSections.head? = some first →
      object.linkSections.getLast? = some last → last.link? = first.link? := by
  rw [debugLink?_eq_last, namedLink?_eq_first]
  cases links : object.linkSections with
  | nil => simp
  | cons first rest =>
    rw [List.head?_cons, List.getLast?_eq_some_getLast (List.cons_ne_nil first rest), Option.bind_some,
      Option.bind_some]
    constructor
    · rintro same _ _ ⟨⟩ ⟨⟩
      exact same
    · exact fun same => same _ _ rfl rfl

/-- Each link section that is added replaces the link that is held. So, whatever sections an object has, in memory
or in a PE image, the link is the one in the last link section, while a look-up by name leads to the first. The two
views agree exactly when both sections say the same, and so when there is one link section or none. -/
theorem debugLink?_views (object : ObjectFile) :
    (∀ name data, (object.withSection name data).debugLink? =
      if name = DebugLink.sectionName then DebugLink.parse? data else object.debugLink?) ∧
    object.debugLink? = object.linkSections.getLast?.bind Section.link? ∧
    object.sectionNamed? DebugLink.sectionName = object.linkSections.head?.bind Section.data ∧
    (object.debugLink? = object.namedLink? ↔ ∀ first last, object.linkSections.head? = some first →
      object.linkSections.getLast? = some last → last.link? = first.link?) ∧
    (object.linkSections.length ≤ 1 → object.debugLink? = object.namedLink?) := by
  refine ⟨debugLink?_withSection object, debugLink?_eq_last object, ?_, views_agree_iff object, fun few => ?_⟩
  · rw [sectionNamed?, linkSections, List.head?_filter]
  · rw [debugLink?_eq_last, namedLink?_eq_first]
    match object.linkSections, few with
    | [], _ => rfl
    | [_], _ => rfl

def repeatedLink : ObjectFile :=
  ofSections 8 none [(".text", [0x90]), (".gnu_debuglink", [0x61, 0]), (".gnu_debuglink", [0x61, 0, 7])]

theorem debugLink?_views_repeatedLink :
    (repeatedLink.debugLink? = repeatedLink.namedLink? ∧ repeatedLink.debugLink? = some ⟨"a", none⟩) ∧
      (ofSections 8 none [(".gnu_debuglink", [0x61])]).linkSections.length ≤ 1 ∧
      (ofSections 8 none [(".gnu_debuglink", [0x61])]).debugLink? =
        (ofSections 8 none [(".gnu_debuglink", [0x61])]).namedLink? := by
  obtain ⟨-, -, -, agree, -⟩ := debugLink?_views repeatedLink
  have single : (ofSections 8 none [(".gnu_debuglink", [0x61])]).linkSections.length ≤ 1 := by decide
  obtain ⟨-, -, -, -, alone⟩ := debugLink?_views (ofSections 8 none [(".gnu_debuglink", [0x61])])
  refine ⟨⟨agree.2 ?_, by decide⟩, single, alone single⟩
  intro first last head foot
  have first_eq : repeatedLink.linkSections.head? = some ⟨".gnu_debuglink", some [0x61, 0]⟩ := by decide
  have last_eq : repeatedLink.linkSections.getLast? = some ⟨".gnu_debuglink", some [0x61, 0, 7]⟩ := by decide
  rw [first_eq, Option.some.injEq] at head
  rw [last_eq, Option.some.injEq] at foot
  subst head foot
  decide

def emptiedLink : ObjectFile :=
  ofSections 8 none [(".gnu_debuglink", [0x61, 0]), (".gnu_debuglink", [])]

theorem debugLink?_ne_namedLink?_emptiedLink :
    emptiedLink.debugLink? = none ∧ emptiedLink.namedLink? = some ⟨"a", none⟩ ∧
      emptiedLink.debugLink? ≠ emptiedLink.namedLink? := by
  decide

end ObjectFile

end Symbolizer
