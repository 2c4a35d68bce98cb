import Symbolizer.Proofs.Path.Components
import Symbolizer.Satellite

/-!
Where the search for a linked file looks. Apart from a rooted link itself only the last component of the link
matters, and it is looked for right in the directory of the image, in its subdirectory `.debug` and in the extra
directories. Of neighbours that are the same path the first is kept.
-/

namespace Symbolizer.Satellite

/-- A list in runs of members with one key, and the list of the first member of each run. -/
inductive FirstsOf (key : α → β) : List α → List α → Prop where
  | nil : FirstsOf key [] []
  | run {first : α} {repeats all kept : List α} (same : ∀ other ∈ repeats, key other = key first)
      (apart : ∀ next ∈ kept.head?, key next ≠ key first) (rest : FirstsOf key all kept) :
      FirstsOf key (first :: repeats ++ all) (first :: kept)

def componentsOf (path : String) : List Path.Component :=
  Path.components path.toList

def finalName? (link : DebugLink) : Option (List Char) :=
  Path.fileName? link.fileName.toList

def linksRooted (link : DebugLink) : Bool :=
  Path.isRooted link.fileName.toList

/-- The directories that are searched: that of the image, its subdirectory `.debug`, and the extra ones. -/
def searched (image : String) (extra : List String) : List (List Path.Component) :=
  let directory := (componentsOf image).dropLast
  directory :: (directory ++ [.name ".debug".toList]) :: extra.map componentsOf

variable {α β γ : Type} {key : α → β} {all kept : List α}

/-! Runs. -/

theorem FirstsOf.subset (firsts : FirstsOf key all kept) : kept ⊆ all := by
  induction firsts with
  | nil => exact List.Subset.refl []
  | run same apart rest ih =>
    apply List.cons_subset_cons
    exact List.subset_append_of_subset_right _ ih

theorem FirstsOf.head? (firsts : FirstsOf key all kept) : kept.head? = all.head? := by
  cases firsts <;> rfl

theorem FirstsOf.map (firsts : FirstsOf key all kept) {copy : α → γ} {other : γ → β}
    (keeps : ∀ a, other (copy a) = key a) : FirstsOf other (all.map copy) (kept.map copy) := by
  induction firsts with
  | nil => exact .nil
  | run same apart rest ih =>
    rw [List.map_append, List.map_cons, List.map_cons]
    apply FirstsOf.run _ _ ih
    · simpa [keeps] using same
    · simpa [keeps] using apart

theorem FirstsOf.alone {first : α} (apart : ∀ next ∈ kept.head?, key next ≠ key first)
    (rest : FirstsOf key all kept) : FirstsOf key (first :: all) (first :: kept) := by
  have run := FirstsOf.run (List.forall_mem_nil _) apart rest
  exact run

theorem dropRepeats_firsts (paths : List (List Char)) :
    FirstsOf Path.components paths (dropRepeats paths) := by
  induction paths with
  | nil => exact .nil
  | cons first rest ih =>
    rw [dropRepeats]
    generalize dropRepeats rest = thinned at ih
    cases ih with
    | nil => exact FirstsOf.alone nofun .nil
    | @run kept repeats all more same apart inner =>
      dsimp only
      by_cases joins : Path.components first = Path.components kept
      · rw [if_pos (beq_iff_eq.2 joins), ← List.cons_append]
        apply FirstsOf.run _ (joins ▸ apart) inner
        simpa [joins] using same
      · rw [if_neg (by simpa using joins)]
        apply FirstsOf.alone _ (.run same apart inner)
        simpa using Ne.symm joins

theorem mem_dropRepeats_cons {first path : List Char} {rest : List (List Char)}
    (member : path ∈ dropRepeats (first :: rest)) : path = first ∨ path ∈ dropRepeats rest := by
  rw [dropRepeats] at member
  split at member
  next =>
    exact .inl (List.mem_singleton.1 member)
  next kept more thinned =>
    rw [thinned]
    split at member
    next =>
      rcases List.mem_cons.1 member with here | later
      · exact .inl here
      · exact .inr (List.mem_cons_of_mem kept later)
    next => exact List.mem_cons.1 member

/-! The list before repeats are dropped. -/

def directories (image : List Char) (extra : List (List Char)) : List (List Char) :=
  let directory := (Path.parent? image).getD []
  directory :: Path.join directory ".debug".toList :: extra

def named (image : List Char) (link : DebugLink) (extra : List (List Char)) : List (List Char) :=
  (finalName? link).toList.flatMap fun name => (directories image extra).map (Path.join · name)

def everyCandidate (image : List Char) (link : DebugLink) (extra : List (List Char)) : List (List Char) :=
  if linksRooted link then link.fileName.toList :: named image link extra else named image link extra

theorem candidates_eq (image : List Char) (link : DebugLink) (extra : List (List Char)) :
    candidates image link extra = dropRepeats (everyCandidate image link extra) := by
  rw [candidates, everyCandidate, named, finalName?, linksRooted]
  dsimp only
  cases Path.fileName? link.fileName.toList with
  | none => cases Path.isRooted link.fileName.toList <;> rfl
  | some name => cases Path.isRooted link.fileName.toList <;> simp [directories]

theorem isName_debug : Path.IsName ".debug".toList :=
  ⟨by decide, by decide⟩

theorem components_directories (image : String) (extra : List String) :
    (directories image.toList (extra.map String.toList)).map Path.components = searched image extra := by
  rw [directories, searched, List.map_cons, List.map_cons, Path.components_join _ isName_debug,
    Path.components_parent, List.map_map]
  rfl

theorem components_named (image : String) (link : DebugLink) (extra : List String) :
    (named image.toList link (extra.map String.toList)).map Path.components =
      (finalName? link).toList.flatMap fun name => (searched image extra).map (· ++ [.name name]) := by
  rw [named, ← components_directories]
  cases last : finalName? link with
  | none => rfl
  | some name =>
    have isName := (Path.isName_of_fileName? last).1
    simp [Path.components_join _ isName, Function.comp_def]

theorem components_everyCandidate (image : String) (link : DebugLink) (extra : List String) :
    (everyCandidate image.toList link (extra.map String.toList)).map Path.components =
      (if linksRooted link then [componentsOf link.fileName] else []) ++
        (finalName? link).toList.flatMap fun name => (searched image extra).map (· ++ [.name name]) := by
  rw [everyCandidate, ← components_named]
  cases linksRooted link <;> rfl

/-! The candidates. -/

theorem candidatePaths_eq (image : String) (link : DebugLink) (extra : List String) :
    candidatePaths image link extra =
      (dropRepeats (everyCandidate image.toList link (extra.map String.toList))).map String.ofList := by
  rw [candidatePaths, candidates_eq]

theorem candidatePaths_firsts (image : String) (link : DebugLink) (extra : List String) :
    FirstsOf componentsOf
      ((everyCandidate image.toList link (extra.map String.toList)).map String.ofList)
      (candidatePaths image link extra) := by
  rw [candidatePaths_eq]
  apply (dropRepeats_firsts _).map
  intro path
  rw [componentsOf, String.toList_ofList]

theorem candidatePaths_rooted (image : String) (link : DebugLink) (extra : List String)
    (rooted : linksRooted link = true) : (candidatePaths image link extra).head? = some link.fileName := by
  rw [(candidatePaths_firsts image link extra).head?, everyCandidate, if_pos rooted, List.map_cons,
    List.head?_cons, String.ofList_toList]

/-- A candidate is the rooted link itself, or its last component right in a directory that is searched. -/
theorem mem_candidatePaths {path image : String} {link : DebugLink} {extra : List String}
    (candidate : path ∈ candidatePaths image link extra) :
    linksRooted link = true ∧ path = link.fileName ∨
      ∃ name directory, finalName? link = some name ∧ directory ∈ searched image extra ∧
        componentsOf path = directory ++ [.name name] := by
  obtain ⟨spelling, held, rfl⟩ := List.mem_map.1 ((candidatePaths_firsts image link extra).subset candidate)
  have joined (held : spelling ∈ named image.toList link (extra.map String.toList)) :
      ∃ name directory, finalName? link = some name ∧ directory ∈ searched image extra ∧
        componentsOf (String.ofList spelling) = directory ++ [.name name] := by
    have among : Path.components spelling ∈
        (named image.toList link (extra.map String.toList)).map Path.components := List.mem_map_of_mem held
    rw [components_named, List.mem_flatMap] at among
    obtain ⟨name, last, among⟩ := among
    obtain ⟨directory, within, same⟩ := List.mem_map.1 among
    refine ⟨name, directory, Option.mem_toList.1 last, within, ?_⟩
    rw [componentsOf, String.toList_ofList, ← same]
  rw [everyCandidate] at held
  split at held
  next rooted =>
    rcases List.mem_cons.1 held with rfl | held
    · exact .inl ⟨rooted, String.ofList_toList⟩
    · exact .inr (joined held)
  next => exact .inr (joined held)

theorem named_congr {link other : DebugLink} (same : finalName? other = finalName? link) (image : List Char)
    (extra : List (List Char)) : named image other extra = named image link extra := by
  rw [named, named, same]

theorem candidatePaths_relative (image : String) {link : DebugLink} (extra : List String)
    (relative : linksRooted link = false) :
    candidatePaths image link extra =
      (dropRepeats (named image.toList link (extra.map String.toList))).map String.ofList := by
  rw [candidatePaths_eq, everyCandidate, if_neg (by simp [relative])]

theorem candidatePaths_nameless (image : String) {link : DebugLink} (extra : List String)
    (nameless : finalName? link = none) :
    candidatePaths image link extra = if linksRooted link then [link.fileName] else [] := by
  rw [candidatePaths_eq, everyCandidate, named, nameless]
  cases linksRooted link with
  | false => rfl
  | true => simp [dropRepeats]

theorem mem_candidatePaths_of_same_name {path image : String} {link other : DebugLink} {extra : List String}
    (same : finalName? other = finalName? link) (relative : linksRooted other = false)
    (candidate : path ∈ candidatePaths image link extra) :
    path = link.fileName ∨ path ∈ candidatePaths image other extra := by
  rw [candidatePaths_relative image extra relative, named_congr same]
  rw [candidatePaths_eq, everyCandidate] at candidate
  split at candidate
  next =>
    obtain ⟨spelling, held, rfl⟩ := List.mem_map.1 candidate
    rcases mem_dropRepeats_cons held with rfl | later
    · exact .inl String.ofList_toList
    · exact .inr (List.mem_map_of_mem later)
  next => exact .inr candidate

/-- The candidates are the firsts of the runs in a list that holds the link itself, if it is rooted, and then its
last component right in each directory that is searched. A rooted link comes first, a link that ends in no name
adds nothing, and of two links with the same last component a relative one has the same candidates as the other,
apart from the other itself. -/
theorem candidatePaths_confined (image : String) (link : DebugLink) (extra : List String) :
    (∃ all : List String, FirstsOf componentsOf all (candidatePaths image link extra) ∧
      all.map componentsOf =
        (if linksRooted link then [componentsOf link.fileName] else []) ++
          (finalName? link).toList.flatMap fun name => (searched image extra).map (· ++ [.name name])) ∧
    (linksRooted link = true → (candidatePaths image link extra).head? = some link.fileName) ∧
    (finalName? link = none →
      candidatePaths image link extra = if linksRooted link then [link.fileName] else []) ∧
    ∀ other : DebugLink, finalName? other = finalName? link → linksRooted other = false →
      (linksRooted link = false → candidatePaths image link extra = candidatePaths image other extra) ∧
      ∀ path ∈ candidatePaths image link extra,
        path = link.fileName ∨ path ∈ candidatePaths image other extra := by
  refine ⟨⟨_, candidatePaths_firsts image link extra, ?_⟩, candidatePaths_rooted image link extra,
    candidatePaths_nameless image extra, ?_⟩
  · rw [List.map_map, ← components_everyCandidate]
    apply List.map_congr_left
    intro path _
    rw [Function.comp_apply, componentsOf, String.toList_ofList]
  · intro other same relative
    constructor
    · intro relative_too
      rw [candidatePaths_relative image extra relative, candidatePaths_relative image extra relative_too,
        named_congr same]
    · intro path candidate
      exact mem_candidatePaths_of_same_name same relative candidate

/-- A rooted link that repeats the first place in the image's own directory, and the same name without the way
to it. -/
theorem candidatePaths_confined_rooted :
    linksRooted ⟨"/opt//app.dbg", none⟩ = true ∧ linksRooted ⟨"app.dbg", none⟩ = false ∧
      finalName? ⟨"app.dbg", none⟩ = finalName? ⟨"/opt//app.dbg", none⟩ ∧
      (candidatePaths "/opt/app.exe" ⟨"/opt//app.dbg", none⟩ ["sym"]).head? = some "/opt//app.dbg" ∧
      (∀ path ∈ candidatePaths "/opt/app.exe" ⟨"/opt//app.dbg", none⟩ ["sym"],
        path = "/opt//app.dbg" ∨ path ∈ candidatePaths "/opt/app.exe" ⟨"app.dbg", none⟩ ["sym"]) ∧
      finalName? ⟨"/opt/..", none⟩ = none ∧
      candidatePaths "/opt/app.exe" ⟨"/opt/..", none⟩ ["sym"] = ["/opt/.."] := by
  have rooted : linksRooted ⟨"/opt//app.dbg", none⟩ = true := by decide
  have relative : linksRooted ⟨"app.dbg", none⟩ = false := by decide
  have same : finalName? ⟨"app.dbg", none⟩ = finalName? ⟨"/opt//app.dbg", none⟩ := by decide
  have nameless : finalName? ⟨"/opt/..", none⟩ = none := by decide
  have confined := candidatePaths_confined "/opt/app.exe" ⟨"/opt//app.dbg", none⟩ ["sym"]
  have upward := candidatePaths_confined "/opt/app.exe" ⟨"/opt/..", none⟩ ["sym"]
  exact ⟨rooted, relative, same, confined.2.1 rooted, (confined.2.2.2 _ same relative).2, nameless,
    upward.2.2.1 nameless⟩

end Symbolizer.Satellite
