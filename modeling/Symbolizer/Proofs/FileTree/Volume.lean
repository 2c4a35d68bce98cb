import Symbolizer.FileTree
import Symbolizer.Proofs.Dwarf.Reading
import Symbolizer.Proofs.Path.Components

/-!
Directories and files below one root, with a current directory and without links. A path is followed segment by
segment, and may be turned down before that. Every place that a path leads to can be told from its components.
-/

namespace Symbolizer

inductive Node where
  | file (data : Bytes)
  | directory (entries : List (List Char × Node))

def Node.at? : Node → List (List Char) → Option Node
  | node, [] => some node
  | .file _, _ :: _ => none
  | .directory entries, name :: names =>
    match entries.lookup name with
    | some node => node.at? names
    | none => none

theorem Node.at?_append (node : Node) (names below : List (List Char)) :
    node.at? (names ++ below) = (node.at? names).bind (Node.at? · below) := by
  induction names generalizing node with
  | nil => rw [List.nil_append, Node.at?, Option.bind_some]
  | cons name names ih =>
    cases node with
    | file data => rfl
    | directory entries =>
      rw [List.cons_append, Node.at?, Node.at?]
      cases entries.lookup name with
      | none => rfl
      | some child => exact ih child

theorem Node.directory_above {node : Node} {place : List (List Char)} {entries : List (List Char × Node)}
    (held : node.at? place = some (.directory entries)) :
    ∃ above, node.at? place.dropLast = some (.directory above) := by
  cases ends : place.getLast? with
  | none =>
    rw [List.getLast?_eq_none_iff.1 ends] at held ⊢
    exact ⟨entries, held⟩
  | some name =>
    obtain ⟨front, rfl⟩ := List.getLast?_eq_some_iff.1 ends
    rw [Node.at?_append, Option.bind_eq_some_iff] at held
    obtain ⟨parent, above, below⟩ := held
    rw [List.dropLast_concat, above]
    cases parent with
    | file data => cases below
    | directory entries => exact ⟨entries, rfl⟩

structure Volume where
  root : Node
  current : List (List Char)
  /-- The paths that are not even looked up, such as those that are too long. -/
  refusal? : List Char → Option FileFault

namespace Volume

def settle (place : List (List Char)) : Path.Component → List (List Char)
  | .root => []
  | .current => place
  | .parent => place.dropLast
  | .name name => place ++ [name]

/-- One step along a path. Only out of a directory there is a step, even one that stays. -/
def step (volume : Volume) (place : List (List Char)) (segment : List Char) :
    Except FileFault (List (List Char)) :=
  match volume.root.at? place with
  | none => .error .notFound
  | some (.file _) => .error .notADirectory
  | some (.directory _) =>
    match Path.component segment with
    | none => .ok place
    | some component =>
      if (volume.root.at? (settle place component)).isSome then .ok (settle place component)
      else .error .notFound

def walk (volume : Volume) : List (List Char) → List (List Char) → Except FileFault (List (List Char))
  | place, [] => .ok place
  | place, segment :: segments => do volume.walk (← volume.step place segment) segments

def follow (volume : Volume) (path : List Char) : Except FileFault (List (List Char)) :=
  match volume.refusal? path with
  | some fault => .error fault
  | none =>
    if Path.isRooted path then volume.walk [] (Path.segments (path.drop 1))
    else volume.walk volume.current (Path.segments path)

def file (volume : Volume) (path : String) : Except FileFault (List (List Char) × Bytes) := do
  let place ← volume.follow path.toList
  match volume.root.at? place with
  | some (.file data) => .ok (place, data)
  | some (.directory _) => .error .isDirectory
  | none => .error .notFound

def toFileSystem (volume : Volume) : FileSystem where
  read path := (volume.file path).map Prod.snd
  isFile path := (volume.file path).toOption.isSome

def Denotes (volume : Volume) (path : String) (place : List (List Char)) : Prop :=
  ∃ data, volume.file path = .ok (place, data)

/-- Where components lead from the current directory, whatever is found on the way. -/
def placeOf (volume : Volume) (components : List Path.Component) : List (List Char) :=
  components.foldl settle volume.current

variable {volume : Volume} {path : String} {place there : List (List Char)} {segment : List Char}
  {segments : List (List Char)}

/-! Steps. -/

theorem step_cases (found : volume.step place segment = .ok there) :
    (∃ entries, volume.root.at? place = some (.directory entries)) ∧
      there = (Path.component segment).toList.foldl settle place := by
  rw [step] at found
  split at found
  next => cases found
  next => cases found
  next entries held =>
    refine ⟨⟨entries, held⟩, ?_⟩
    split at found
    next stays =>
      cases found
      rw [stays]
      rfl
    next component leads =>
      split at found <;> cases found
      rw [leads]
      rfl

theorem walk_settles (found : volume.walk place segments = .ok there) :
    there = (segments.filterMap Path.component).foldl settle place := by
  induction segments generalizing place with
  | nil =>
    cases found
    rfl
  | cons segment segments ih =>
    rw [walk, bind_eq_ok] at found
    obtain ⟨next, stepped, walked⟩ := found
    rw [ih walked, (step_cases stepped).2, List.filterMap_cons]
    cases Path.component segment <;> rfl

theorem walk_concat (found : volume.walk place (segments ++ [segment]) = .ok there) :
    ∃ mid, volume.step mid segment = .ok there := by
  induction segments generalizing place with
  | nil =>
    rw [List.nil_append, walk, bind_eq_ok] at found
    obtain ⟨next, stepped, walked⟩ := found
    cases walked
    exact ⟨place, stepped⟩
  | cons first segments ih =>
    rw [List.cons_append, walk, bind_eq_ok] at found
    obtain ⟨next, -, walked⟩ := found
    exact ih walked

/-- Only a name leads out of a directory to a file. -/
theorem named_of_step {data : Bytes} (found : volume.step place segment = .ok there)
    (held : volume.root.at? there = some (.file data)) :
    Path.component segment = some (.name segment) := by
  obtain ⟨⟨entries, before⟩, rfl⟩ := step_cases found
  rcases Path.component_cases segment with none | up | named
  · rw [none, Option.toList_none, List.foldl_nil, before] at held
    cases held
  · obtain ⟨above, parent⟩ := Node.directory_above before
    rw [up] at held
    cases parent.symm.trans held
  · exact named

theorem named_of_walk {data : Bytes} (more : segments ≠ []) (found : volume.walk place segments = .ok there)
    (held : volume.root.at? there = some (.file data)) :
    ∃ front name, segments = front ++ [name] ∧ Path.component name = some (.name name) := by
  have whole := List.dropLast_append_getLast more
  rw [← whole] at found
  obtain ⟨mid, stepped⟩ := walk_concat found
  exact ⟨_, _, whole.symm, named_of_step stepped held⟩

/-! Paths. -/

theorem foldl_spelled (place : List (List Char)) (segments : List (List Char)) :
    (Path.spelled segments).foldl settle place = (segments.filterMap Path.component).foldl settle place := by
  cases segments with
  | nil => rfl
  | cons first rest =>
    by_cases dot : first = ['.']
    · rw [dot]
      rfl
    · rw [Path.spelled]
      simp [dot]

theorem walk_of_follow {path : List Char} (found : volume.follow path = .ok there) :
    (∃ body, path = '/' :: body ∧ volume.walk [] (Path.segments body) = .ok there) ∨
      Path.isRooted path = false ∧ volume.walk volume.current (Path.segments path) = .ok there := by
  rw [follow] at found
  split at found
  next => cases found
  next =>
    split at found
    next rooted =>
      rw [Path.isRooted, beq_iff_eq] at rooted
      obtain ⟨body, rfl⟩ := List.head?_eq_some_iff.1 rooted
      exact .inl ⟨body, rfl, found⟩
    next relative => exact .inr ⟨by simpa using relative, found⟩

theorem follow_settles {path : List Char} (found : volume.follow path = .ok there) :
    there = volume.placeOf (Path.components path) := by
  rcases walk_of_follow found with ⟨body, rfl, walked⟩ | ⟨relative, walked⟩
  · rw [walk_settles walked, Path.components_rooted, placeOf, List.foldl_cons, settle]
  · rw [walk_settles walked, Path.components_relative relative, placeOf, foldl_spelled]

theorem placeOf_concat (volume : Volume) (components : List Path.Component) (name : List Char) :
    volume.placeOf (components ++ [.name name]) = volume.placeOf components ++ [name] := by
  rw [placeOf, List.foldl_append]
  rfl

theorem denotes_iff : volume.Denotes path place ↔
    volume.follow path.toList = .ok place ∧ ∃ data, volume.root.at? place = some (.file data) := by
  rw [Denotes, file]
  simp only [bind_eq_ok]
  constructor
  · rintro ⟨data, reached, followed, read⟩
    split at read <;> cases read
    next held => exact ⟨followed, data, held⟩
  · rintro ⟨followed, data, held⟩
    exact ⟨data, place, followed, by rw [held]⟩

theorem Denotes.settles (denotes : volume.Denotes path place) :
    place = volume.placeOf (Path.components path.toList) :=
  follow_settles (denotes_iff.1 denotes).1

theorem Denotes.unique (denotes : volume.Denotes path place) (denotes_too : volume.Denotes path there) :
    place = there := by
  rw [denotes.settles, denotes_too.settles]

theorem Denotes.ends_in_name (denotes : volume.Denotes path place) :
    ∃ front name, Path.components path.toList = front ++ [.name name] := by
  obtain ⟨followed, data, held⟩ := denotes_iff.1 denotes
  rcases walk_of_follow followed with ⟨body, spelling, walked⟩ | ⟨relative, walked⟩
  · obtain ⟨front, name, split, named⟩ := named_of_walk (Path.segments_ne_nil body) walked held
    refine ⟨.root :: front.filterMap Path.component, name, ?_⟩
    rw [spelling, Path.components_rooted, split, List.filterMap_append, List.filterMap_cons_some named]
    rfl
  · obtain ⟨front, name, split, named⟩ := named_of_walk (Path.segments_ne_nil _) walked held
    refine ⟨Path.spelled front, name, ?_⟩
    rw [Path.components_relative relative, split, Path.spelled_concat named]

theorem isFile_iff : volume.toFileSystem.isFile path = true ↔ ∃ place, volume.Denotes path place := by
  rw [toFileSystem, Option.isSome_iff_exists]
  simp only [toOption_eq_some_iff, Denotes, Prod.exists]

end Volume

end Symbolizer
