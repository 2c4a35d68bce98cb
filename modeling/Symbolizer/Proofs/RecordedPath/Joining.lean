import Mathlib
import Symbolizer.RecordedPath

/-!
Recorded paths as what is written of their components. All in front of the last rooted component is dropped;
what is left is written as it stands and in its order, but for empty components, and each component behind
the gap that the text in front of it asks for.
-/

namespace Symbolizer.RecordedPath

def IsSeparator (c : Char) : Prop :=
  c = '/' ∨ c = '\\'

/-- Paths of systems with drives start with a backslash, or with a drive and a separator. A drive is one
character of one byte and a colon. -/
inductive DriveRooted : List Char → Prop where
  | backslash (rest : List Char) : DriveRooted ('\\' :: rest)
  | drive {letter closing : Char} (small : letter.toNat < 0x80) (closes : IsSeparator closing)
      (rest : List Char) : DriveRooted (letter :: ':' :: closing :: rest)

inductive Rooted : List Char → Prop where
  | slash (rest : List Char) : Rooted ('/' :: rest)
  | onDrive {component : List Char} (drive : DriveRooted component) : Rooted component

inductive Ready : List Char → Prop where
  | empty : Ready []
  | closed (front : List Char) {closing : Char} (closes : IsSeparator closing) : Ready (front ++ [closing])

inductive Gap (text : List Char) : List Char → Prop where
  | none (ready : Ready text) : Gap text []
  | slash (apart : ¬Ready text) (plain : ¬DriveRooted text) : Gap text ['/']
  | backslash (apart : ¬Ready text) (drive : DriveRooted text) : Gap text ['\\']

inductive Written : List (List Char) → List Char → Prop where
  | nothing : Written [] []
  | behind {front : List (List Char)} {text gap : List Char} (written : Written front text)
      (between : Gap text gap) (component : List Char) :
      Written (front ++ [component]) (text ++ gap ++ component)

/-- The components that are written: the last rooted one and all behind it, or all when none is rooted, and
of those behind it the ones that are not empty. -/
inductive Kept : List (List Char) → List (List Char) → Prop where
  | all {components : List (List Char)} (relative : ∀ component ∈ components, ¬Rooted component) :
      Kept components (components.filter (!·.isEmpty))
  | behindRoot (dropped : List (List Char)) {root : List Char} (rooted : Rooted root)
      {behind : List (List Char)} (relative : ∀ component ∈ behind, ¬Rooted component) :
      Kept (dropped ++ root :: behind) (root :: behind.filter (!·.isEmpty))

variable {text first second component root : List Char} {components kept behind : List (List Char)}

/-! Roots and gaps. -/

theorem hasDriveRoot_iff : hasDriveRoot component = true ↔ DriveRooted component := by
  constructor
  · intro found
    unfold hasDriveRoot at found
    split at found
    next rest => exact .backslash rest
    next letter closing rest _ =>
      obtain ⟨small, closes⟩ := Bool.and_eq_true_iff.1 found
      exact .drive (of_decide_eq_true small) (by simpa [IsSeparator, or_comm] using closes) rest
    next => cases found
  · intro rooted
    cases rooted with
    | backslash rest => rfl
    | drive small closes rest =>
      unfold hasDriveRoot
      split
      next => rfl
      next _ same =>
        cases same
        rcases closes with rfl | rfl <;> simp [small]
      next _ none => exact absurd rfl (none _ _ _)

theorem rooted_iff : (hasSlashRoot component || hasDriveRoot component) = true ↔ Rooted component := by
  rw [Bool.or_eq_true, hasDriveRoot_iff]
  constructor
  · rintro (slash | drive)
    · obtain ⟨rest, rfl⟩ : ∃ rest, component = '/' :: rest := by
        cases component with
        | nil => cases slash
        | cons c rest =>
          have same : c = '/' := by simpa [hasSlashRoot] using slash
          exact ⟨rest, by rw [same]⟩
      exact .slash rest
    · exact .onDrive drive
  · rintro (rest | drive)
    · exact .inl rfl
    · exact .inr drive

theorem ready_iff : (text.isEmpty || endsInSeparator text) = true ↔ Ready text := by
  rcases List.eq_nil_or_concat' text with rfl | ⟨front, closing, rfl⟩
  · exact iff_of_true rfl .empty
  · have last : (front ++ [closing]).isEmpty = false := by simp
    rw [last, Bool.false_or]
    constructor
    · intro ends
      exact .closed front (by simpa [endsInSeparator, IsSeparator] using ends)
    · intro ready
      generalize same : front ++ [closing] = text at ready
      cases ready with
      | empty => simp at same
      | closed other closes =>
        obtain ⟨rfl, rfl⟩ := List.append_singleton_inj.1 same
        simpa [endsInSeparator, IsSeparator] using closes

theorem Rooted.ne_nil (rooted : Rooted component) : component ≠ [] := by
  rintro rfl
  cases rooted with
  | onDrive drive => cases drive

theorem Gap.unique (one : Gap text first) (other : Gap text second) : first = second := by
  cases one <;> cases other <;> first | rfl | contradiction

/-! One component. -/

theorem push_empty (text : List Char) : push text [] = text := rfl

theorem push_rooted (text : List Char) (rooted : Rooted component) : push text component = component := by
  have nonempty : component.isEmpty = false := by simpa using rooted.ne_nil
  rw [push, nonempty, if_neg Bool.false_ne_true, if_pos (rooted_iff.2 rooted)]

theorem push_relative (text : List Char) (relative : ¬Rooted component) (nonempty : component ≠ []) :
    ∃ gap, Gap text gap ∧ push text component = text ++ gap ++ component := by
  have filled : component.isEmpty = false := by simpa using nonempty
  rw [push, filled, if_neg Bool.false_ne_true, if_neg (mt rooted_iff.1 relative)]
  by_cases ready : Ready text
  · rw [if_pos (ready_iff.2 ready)]
    exact ⟨[], .none ready, by rw [List.append_nil]⟩
  · rw [if_neg (mt ready_iff.1 ready), separator]
    by_cases drive : DriveRooted text
    · rw [if_pos (hasDriveRoot_iff.2 drive)]
      exact ⟨['\\'], .backslash ready drive, by simp⟩
    · rw [if_neg (mt hasDriveRoot_iff.1 drive)]
      exact ⟨['/'], .slash ready drive, by simp⟩

theorem suffix_push (text component : List Char) : component <:+ push text component := by
  by_cases empty : component = []
  · rw [empty]
    exact List.nil_suffix
  · by_cases rooted : Rooted component
    · rw [push_rooted text rooted]
    · obtain ⟨gap, _, same⟩ := push_relative text rooted empty
      rw [same]
      exact List.suffix_append _ _

/-! All components. -/

theorem written_concat (written : Written (kept ++ [component]) text) :
    ∃ front gap, Written kept front ∧ Gap front gap ∧ text = front ++ gap ++ component := by
  generalize same : kept ++ [component] = whole at written
  cases written with
  | nothing => simp at same
  | behind written between last =>
    obtain ⟨rfl, rfl⟩ := List.append_singleton_inj.1 same
    exact ⟨_, _, written, between, rfl⟩

theorem Written.unique (one : Written kept first) (other : Written kept second) : first = second := by
  induction one generalizing second with
  | nothing =>
    generalize same : ([] : List (List Char)) = none at other
    cases other with
    | nothing => rfl
    | behind => simp at same
  | behind _ between component ih =>
    obtain ⟨front, gap, written, between_too, rfl⟩ := written_concat other
    cases ih written
    rw [between.unique between_too]

theorem written_root (root : List Char) : Written [root] root := by
  have alone := Written.behind .nothing (.none .empty) root
  simpa using alone

theorem Written.foldl_push (written : Written kept text)
    (relative : ∀ component ∈ components, ¬Rooted component) :
    Written (kept ++ components.filter (!·.isEmpty)) (components.foldl push text) := by
  induction components generalizing kept text with
  | nil => simpa using written
  | cons component rest ih =>
    obtain ⟨here, later⟩ := List.forall_mem_cons.1 relative
    by_cases empty : component = []
    · subst empty
      rw [List.foldl_cons, push_empty]
      exact ih written later
    · obtain ⟨gap, between, pushed⟩ := push_relative text here empty
      have filled : (!component.isEmpty) = true := by simpa using empty
      have longer := ih (pushed ▸ written.behind between component) later
      simpa [filled] using longer

theorem joinAll_behind_root (dropped : List (List Char)) (rooted : Rooted root)
    (behind : List (List Char)) : joinAll (dropped ++ root :: behind) = joinAll (root :: behind) := by
  rw [joinAll, joinAll, List.foldl_append, List.foldl_cons, List.foldl_cons, push_rooted _ rooted,
    push_rooted _ rooted]

theorem Kept.written (keeps : Kept components kept) : Written kept (joinAll components) := by
  cases keeps with
  | all relative => exact Written.nothing.foldl_push relative
  | behindRoot dropped rooted relative =>
    rw [joinAll_behind_root dropped rooted, joinAll, List.foldl_cons, push_rooted [] rooted]
    exact (written_root _).foldl_push relative

theorem exists_kept (components : List (List Char)) : ∃ kept, Kept components kept := by
  induction components with
  | nil => exact ⟨_, .all nofun⟩
  | cons first rest ih =>
    obtain ⟨_, keeps⟩ := ih
    cases keeps with
    | behindRoot dropped rooted relative => exact ⟨_, .behindRoot (first :: dropped) rooted relative⟩
    | all relative =>
      by_cases rooted : Rooted first
      · exact ⟨_, .behindRoot [] rooted relative⟩
      · exact ⟨_, .all (List.forall_mem_cons.2 ⟨rooted, relative⟩)⟩

/-- A path is what is written of the components that are kept. -/
theorem joinAll_eq_iff : joinAll components = text ↔ ∃ kept, Kept components kept ∧ Written kept text := by
  constructor
  · rintro rfl
    obtain ⟨kept, keeps⟩ := exists_kept components
    exact ⟨kept, keeps, keeps.written⟩
  · rintro ⟨kept, keeps, written⟩
    exact keeps.written.unique written

theorem suffix_joinAll (front : List (List Char)) (component : List Char) :
    component <:+ joinAll (front ++ [component]) := by
  rw [joinAll, List.foldl_append, List.foldl_cons, List.foldl_nil]
  exact suffix_push _ component

end Symbolizer.RecordedPath
