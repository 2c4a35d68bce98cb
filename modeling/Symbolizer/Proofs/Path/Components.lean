import Symbolizer.Path
import Symbolizer.Proofs.Text.Words

/-!
Components of paths that are joined and taken apart. A name below a directory adds one component, and the
parent of a path has all components but the last, however the paths are spelled.
-/

namespace Symbolizer.Path

/-- A name is one segment, and no other spelling of its directory or of the parent. -/
structure IsName (name : List Char) : Prop where
  named : component name = some (.name name)
  solid : '/' ∉ name

/-- What the segments of a relative path spell: a dot counts in front and nowhere else. -/
def spelled : List (List Char) → List Component
  | ['.'] :: rest => .current :: rest.filterMap component
  | pieces => pieces.filterMap component

variable {path base name piece : List Char} {pieces : List (List Char)} {c : Char}

/-! Segments. -/

theorem segments_eq (path : List Char) : segments path = path.splitOn '/' :=
  Text.splitBy_eq _ path

theorem segments_ne_nil (path : List Char) : segments path ≠ [] := by
  rw [segments_eq]
  exact List.splitOn_ne_nil '/' path

theorem segments_append (front back : List Char) :
    segments (front ++ '/' :: back) = segments front ++ segments back := by
  simp only [segments_eq]
  exact List.splitOn_append_cons_self front back

theorem segments_of_solid (solid : '/' ∉ piece) : segments piece = [piece] := by
  rw [segments_eq]
  exact List.splitOn_eq_singleton solid

theorem segments_other (other : c ≠ '/') (rest : List Char) :
    ∃ first others, segments rest = first :: others ∧ segments (c :: rest) = (c :: first) :: others := by
  obtain ⟨first, others, split⟩ := List.exists_cons_of_ne_nil (segments_ne_nil rest)
  refine ⟨first, others, split, ?_⟩
  rw [segments_eq] at split ⊢
  rw [List.splitOn_cons_eq_if_modifyHead, if_neg (by simpa using other), split]
  rfl

theorem solid_of_mem_segments (member : piece ∈ segments path) : '/' ∉ piece := by
  induction path generalizing piece with
  | nil =>
    rw [List.mem_singleton.1 member]
    exact List.not_mem_nil
  | cons c rest ih =>
    by_cases slash : c = '/'
    · rw [slash, ← List.nil_append ('/' :: rest), segments_append] at member
      rcases List.mem_cons.1 member with rfl | later
      · exact List.not_mem_nil
      · exact ih later
    · obtain ⟨first, others, split, joined⟩ := segments_other slash rest
      rw [joined] at member
      rcases List.mem_cons.1 member with rfl | later
      · have solid := ih (split ▸ List.mem_cons_self)
        simpa [Ne.symm slash] using solid
      · exact ih (split ▸ List.mem_cons_of_mem first later)

theorem solid_of_segments_split {back : List (List Char)} (split : segments path = pieces ++ back) :
    ∀ piece ∈ pieces, '/' ∉ piece := by
  intro piece held
  have member : piece ∈ segments path := by
    rw [split]
    exact List.mem_append_left back held
  exact solid_of_mem_segments member

theorem joinWith_eq (separator : List Char) (pieces : List (List Char)) :
    Text.joinWith separator pieces = separator.intercalate pieces := by
  match pieces with
  | [] => rfl
  | [piece] => simp [Text.joinWith]
  | piece :: next :: pieces =>
    rw [Text.joinWith_cons_cons, joinWith_eq separator (next :: pieces), List.intercalate_cons_cons]

theorem segments_joinWith (some : pieces ≠ []) (solid : ∀ piece ∈ pieces, '/' ∉ piece) :
    segments (Text.joinWith ['/'] pieces) = pieces := by
  rw [segments_eq, joinWith_eq]
  exact List.splitOn_intercalate '/' solid some

theorem isRooted_joinWith (relative : isRooted path = false) {front back : List (List Char)}
    (split : segments path = front ++ back) (more : path ≠ []) :
    isRooted (Text.joinWith ['/'] front) = false := by
  obtain ⟨c, rest, rfl⟩ := List.exists_cons_of_ne_nil more
  have other : c ≠ '/' := by simpa [isRooted] using relative
  obtain ⟨first, others, -, joined⟩ := segments_other other rest
  cases front with
  | nil => rfl
  | cons piece pieces =>
    rw [joined, List.cons_append, List.cons.injEq] at split
    rw [← split.1]
    cases pieces <;> simpa [Text.joinWith, isRooted] using other

/-! Components. -/

theorem component_cases (piece : List Char) :
    component piece = none ∨ component piece = some .parent ∨ component piece = some (.name piece) := by
  unfold component
  split <;> simp

theorem component_eq_name_iff :
    component piece = some (.name name) ↔ piece = name ∧ component name = some (.name name) := by
  constructor
  · intro named
    obtain rfl : piece = name := by
      rcases component_cases piece with none | up | whole
      · rw [none] at named
        cases named
      · rw [up] at named
        cases named
      · rw [whole] at named
        cases named
        rfl
    exact ⟨rfl, named⟩
  · rintro ⟨rfl, named⟩
    exact named

theorem components_rooted (path : List Char) :
    components ('/' :: path) = .root :: (segments path).filterMap component :=
  rfl

theorem components_relative (relative : isRooted path = false) :
    components path = spelled (segments path) := by
  rw [components, if_neg (by simp [relative])]
  rfl

theorem spelled_append (some : pieces ≠ []) (more : List (List Char)) :
    spelled (pieces ++ more) = spelled pieces ++ more.filterMap component := by
  obtain ⟨piece, rest, rfl⟩ := List.exists_cons_of_ne_nil some
  by_cases dot : piece = ['.']
  · simp [dot, spelled]
  · rw [List.cons_append, spelled, spelled, ← List.cons_append, List.filterMap_append] <;> simp [dot]

theorem spelled_concat {told : Component} (known : component piece = some told) :
    spelled (pieces ++ [piece]) = spelled pieces ++ [told] := by
  cases pieces with
  | nil =>
    have dot : piece ≠ ['.'] := by
      rintro rfl
      cases known
    rw [List.nil_append, spelled, List.filterMap_cons_some known]
    · rfl
    · simp [dot]
  | cons first rest =>
    rw [spelled_append (List.cons_ne_nil first rest), List.filterMap_cons_some known, List.filterMap_nil]

theorem components_append (some : path ≠ []) (back : List Char) :
    components (path ++ '/' :: back) = components path ++ (segments back).filterMap component := by
  obtain ⟨c, rest, rfl⟩ := List.exists_cons_of_ne_nil some
  by_cases slash : c = '/'
  · rw [slash, List.cons_append, components_rooted, components_rooted, segments_append,
      List.filterMap_append, List.cons_append]
  · have relative : isRooted (c :: rest) = false := by simpa [isRooted] using slash
    have relative_too : isRooted (c :: rest ++ '/' :: back) = false := by simpa [isRooted] using slash
    rw [components_relative relative, components_relative relative_too, segments_append,
      spelled_append (segments_ne_nil _)]

/-! Names below a directory. -/

theorem IsName.relative (named : IsName name) : isRooted name = false := by
  cases name with
  | nil => rfl
  | cons c rest =>
    have other : c ≠ '/' := by
      rintro rfl
      exact named.solid List.mem_cons_self
    simpa [isRooted] using other

theorem IsName.filterMap_segments (named : IsName name) :
    (segments name).filterMap component = [.name name] := by
  rw [segments_of_solid named.solid, List.filterMap_cons_some named.named, List.filterMap_nil]

theorem IsName.components_eq (named : IsName name) : components name = [.name name] := by
  have alone : spelled ([] ++ [name]) = spelled [] ++ [.name name] := spelled_concat named.named
  rw [components_relative named.relative, segments_of_solid named.solid]
  exact alone

theorem components_join (base : List Char) (named : IsName name) :
    components (join base name) = components base ++ [.name name] := by
  rw [join, if_neg (by simp [named.relative])]
  by_cases empty : base = []
  · subst empty
    exact named.components_eq
  by_cases closed : base.getLast? = some '/'
  · obtain ⟨front, rfl⟩ := List.getLast?_eq_some_iff.1 closed
    rw [if_pos (by simp), List.append_assoc, List.singleton_append]
    by_cases root : front = []
    · subst root
      rw [List.nil_append, List.nil_append, components_rooted, named.filterMap_segments]
      rfl
    · rw [components_append root, components_append root, named.filterMap_segments]
      exact congrArg (· ++ _) (List.append_nil _).symm
  · rw [if_neg (by simp [empty, closed]), components_append empty, named.filterMap_segments]

/-! The last component. -/

theorem isName_of_mem_components (member : .name name ∈ components path) : IsName name := by
  have among {pieces : List (List Char)} (solid : ∀ piece ∈ pieces, '/' ∉ piece)
      (member : .name name ∈ pieces.filterMap component) : IsName name := by
    obtain ⟨piece, held, named⟩ := List.mem_filterMap.1 member
    obtain ⟨rfl, named⟩ := component_eq_name_iff.1 named
    exact ⟨named, solid piece held⟩
  rw [components] at member
  split at member
  next =>
    rcases List.mem_cons.1 member with root | member
    · cases root
    · exact among (fun _ => solid_of_mem_segments) member
  next =>
    split at member
    next rest split =>
      rcases List.mem_cons.1 member with current | member
      · cases current
      · exact among (fun piece held => solid_of_mem_segments (split ▸ List.mem_cons_of_mem _ held)) member
    next => exact among (fun _ => solid_of_mem_segments) member

theorem isName_of_fileName? (named : fileName? path = some name) :
    IsName name ∧ (components path).getLast? = some (.name name) := by
  rw [fileName?] at named
  split at named
  next text last =>
    cases named
    exact ⟨isName_of_mem_components (List.mem_of_getLast? last), last⟩
  next => cases named

/-! The parent. A segment is marked when it stands for a component, so that what is cut off behind the last mark
spells nothing. -/

def markedComponent (piece : Bool × List Char) : Option Component :=
  if piece.1 then some ((component piece.2).getD .current) else none

theorem filterMap_marked_false (pieces : List (List Char)) :
    (marked false pieces).filterMap markedComponent = pieces.filterMap component := by
  induction pieces with
  | nil => rfl
  | cons piece rest ih =>
    rw [marked, List.filterMap_cons, List.filterMap_cons, ih]
    cases known : component piece <;> simp [markedComponent, known]

theorem filterMap_marked_true (pieces : List (List Char)) :
    (marked true pieces).filterMap markedComponent = spelled pieces := by
  cases pieces with
  | nil => rfl
  | cons piece rest =>
    rw [marked, List.filterMap_cons, filterMap_marked_false]
    by_cases dot : piece = ['.']
    · rw [dot]
      rfl
    · rw [spelled, List.filterMap_cons]
      · cases known : component piece <;> simp [markedComponent, known, dot]
      · simp [dot]

theorem marked_of_append {first : Bool} {kept rest : List (Bool × List Char)}
    (split : marked first pieces = kept ++ rest) :
    marked first (kept.map Prod.snd) = kept ∧ ∃ back, pieces = kept.map Prod.snd ++ back := by
  induction kept generalizing first pieces with
  | nil => exact ⟨rfl, pieces, rfl⟩
  | cons mark kept ih =>
    cases pieces with
    | nil => cases split
    | cons piece pieces =>
      rw [marked, List.cons_append, List.cons.injEq] at split
      obtain ⟨rfl, split⟩ := split
      obtain ⟨alone, back, rfl⟩ := ih split
      refine ⟨?_, back, rfl⟩
      rw [List.map_cons, marked, alone]

theorem dropUnmarkedEnd_split (marks : List (Bool × List Char)) :
    ∃ rest, marks = dropUnmarkedEnd marks ++ rest ∧ rest.filterMap markedComponent = [] := by
  refine ⟨marks.rtakeWhile (!·.1), List.rdropWhile_append_rtakeWhile.symm, ?_⟩
  rw [List.filterMap_eq_nil_iff]
  intro mark member
  have unmarked : mark.1 = false := by simpa using List.mem_rtakeWhile_imp member
  rw [markedComponent, if_neg (by simp [unmarked])]

theorem filterMap_eq_nil_of_beforeLast? {marks : List (Bool × List Char)}
    (none : beforeLast? marks = none) : marks.filterMap markedComponent = [] := by
  obtain ⟨rest, split, unmarked⟩ := dropUnmarkedEnd_split marks
  rw [beforeLast?] at none
  split at none
  next empty => rw [split, empty, List.nil_append, unmarked]
  next => cases none

theorem filterMap_of_beforeLast? {marks : List (Bool × List Char)} {front : List (List Char)}
    (found : beforeLast? marks = some front) :
    ∃ kept rest last, marks = kept ++ rest ∧ front = kept.map Prod.snd ∧
      marks.filterMap markedComponent = kept.filterMap markedComponent ++ [last] := by
  obtain ⟨behind, split, unmarked⟩ := dropUnmarkedEnd_split marks
  rw [beforeLast?] at found
  split at found
  next => cases found
  next some =>
    cases found
    obtain ⟨gap, split_front, unmarked_gap⟩ := dropUnmarkedEnd_split (dropUnmarkedEnd marks).dropLast
    have last_marked : ((dropUnmarkedEnd marks).getLast some).1 = true := by
      have held := List.rdropWhile_last_not (fun mark : Bool × List Char => !mark.1) marks some
      rw [Bool.not_eq_true, Bool.not_eq_false'] at held
      exact held
    have ended := List.dropLast_append_getLast some
    generalize (dropUnmarkedEnd marks).getLast some = last at last_marked ended
    have whole : marks = dropUnmarkedEnd (dropUnmarkedEnd marks).dropLast ++ (gap ++ last :: behind) := by
      calc
        marks = (dropUnmarkedEnd marks).dropLast ++ [last] ++ behind := by rw [ended, ← split]
        _ = dropUnmarkedEnd (dropUnmarkedEnd marks).dropLast ++ gap ++ [last] ++ behind := by
          rw [← split_front]
        _ = _ := by simp
    have counted : markedComponent last = .some ((component last.2).getD .current) := if_pos last_marked
    refine ⟨_, _, (component last.2).getD .current, whole, rfl, ?_⟩
    conv_lhs => rw [whole]
    rw [List.filterMap_append, List.filterMap_append, unmarked_gap, List.nil_append,
      List.filterMap_cons_some counted, unmarked]

theorem front_of_beforeLast? {first : Bool} {front : List (List Char)}
    (found : beforeLast? (marked first pieces) = some front) :
    (∃ back, pieces = front ++ back) ∧
      ∃ last, (marked first pieces).filterMap markedComponent =
        (marked first front).filterMap markedComponent ++ [last] := by
  obtain ⟨kept, rest, last, split, rfl, spelt⟩ := filterMap_of_beforeLast? found
  obtain ⟨alone, back, whole⟩ := marked_of_append split
  refine ⟨⟨back, whole⟩, last, ?_⟩
  rw [spelt, alone]

theorem components_parent_rooted (body : List Char) :
    components ((parent? ('/' :: body)).getD []) = (components ('/' :: body)).dropLast := by
  have rooted : isRooted ('/' :: body) = true := rfl
  rw [parent?, if_pos rooted, components_rooted, List.drop_one, List.tail_cons, ← filterMap_marked_false]
  cases found : beforeLast? (marked false (segments body)) with
  | none =>
    rw [filterMap_eq_nil_of_beforeLast? found]
    rfl
  | some front =>
    obtain ⟨⟨back, whole⟩, last, spelt⟩ := front_of_beforeLast? found
    have same : (segments (Text.joinWith ['/'] front)).filterMap component = front.filterMap component := by
      by_cases none : front = []
      · rw [none]
        rfl
      · rw [segments_joinWith none (solid_of_segments_split whole)]
    rw [spelt, filterMap_marked_false, ← List.cons_append, List.dropLast_concat, ← same, ← components_rooted]
    rfl

theorem components_parent_relative (relative : isRooted path = false) :
    components ((parent? path).getD []) = (components path).dropLast := by
  rw [parent?, if_neg (by simp [relative]), components_relative relative, ← filterMap_marked_true]
  cases found : beforeLast? (marked true (segments path)) with
  | none =>
    rw [filterMap_eq_nil_of_beforeLast? found]
    rfl
  | some front =>
    obtain ⟨⟨back, whole⟩, last, spelt⟩ := front_of_beforeLast? found
    have more : path ≠ [] := by
      rintro rfl
      cases found
    rw [spelt, filterMap_marked_true, List.dropLast_concat, Option.map_some, Option.getD_some,
      components_relative (isRooted_joinWith relative whole more)]
    by_cases none : front = []
    · rw [none]
      rfl
    · rw [segments_joinWith none (solid_of_segments_split whole)]

/-- The parent of a path has all components but the last. Without a component there is no parent, and the empty
path stands for it. -/
theorem components_parent (path : List Char) :
    components ((parent? path).getD []) = (components path).dropLast := by
  by_cases rooted : isRooted path = true
  · rw [isRooted, beq_iff_eq] at rooted
    obtain ⟨body, rfl⟩ := List.head?_eq_some_iff.1 rooted
    exact components_parent_rooted body
  · exact components_parent_relative (by simpa using rooted)

end Symbolizer.Path
