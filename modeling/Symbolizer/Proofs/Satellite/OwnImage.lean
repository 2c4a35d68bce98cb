import Symbolizer.Proofs.FileTree.Volume
import Symbolizer.Proofs.Satellite.Candidates

/-!
Whether the search for a linked file can come back to the image itself. The image is told from the candidates by
its spelling. A candidate that is spelled otherwise and still is the image comes from a rooted link or from an
extra directory that is the image's own, and stands in the way of all candidates behind it.
-/

namespace Symbolizer.Satellite

def IsFirst (property : α → Prop) (list : List α) (a : α) : Prop :=
  ∃ front back, list = front ++ a :: back ∧ property a ∧ ∀ earlier ∈ front, ¬property earlier

def OtherFile (volume : Volume) (image path : String) : Prop :=
  ∃ place, volume.Denotes path place ∧ ¬volume.Denotes image place

def OtherSpelling (volume : Volume) (image path : String) : Prop :=
  componentsOf path ≠ componentsOf image ∧ ∃ place, volume.Denotes path place ∧ volume.Denotes image place

/-- A search passes over the image: what it finds is another file, and the first candidate that is one is
found. -/
structure PassesOverImage (volume : Volume) (image : String) (link : DebugLink) (extra : List String) : Prop where
  other : ∀ found, locate? volume.toFileSystem image link extra = some found → OtherFile volume image found
  first : ∀ path, IsFirst (OtherFile volume image) (candidatePaths image link extra) path →
    locate? volume.toFileSystem image link extra = some path

/-- A path comes from a link with the name of the image and from a directory that is the one of the image in
another spelling. -/
structure FromOwnDirectory (volume : Volume) (image : String) (link : DebugLink) (directory path : String)
    (name : List Char) : Prop where
  linked : finalName? link = some name
  own : (componentsOf image).getLast? = some (.name name)
  joined : componentsOf path = componentsOf directory ++ [.name name]
  leads : volume.placeOf (componentsOf directory) = volume.placeOf (componentsOf image).dropLast
  apart : componentsOf directory ≠ (componentsOf image).dropLast

variable {volume : Volume} {image path : String} {link : DebugLink} {extra : List String}
  {here : List (List Char)}

/-! What is found. -/

theorem same_iff (path image : String) : Path.same path image = true ↔ componentsOf path = componentsOf image := by
  rw [Path.same, componentsOf, componentsOf, beq_iff_eq]

theorem not_otherFile_of_same (present : volume.Denotes image here)
    (same : componentsOf path = componentsOf image) : ¬OtherFile volume image path := by
  rintro ⟨place, denotes, other⟩
  have meet : place = here := by
    rw [denotes.settles, present.settles]
    exact congrArg volume.placeOf same
  exact other (meet ▸ present)

theorem taken_iff (present : volume.Denotes image here) (path : String) :
    (!Path.same path image && volume.toFileSystem.isFile path) = true ↔
      OtherFile volume image path ∨ OtherSpelling volume image path := by
  rw [Bool.and_eq_true, Bool.not_eq_true', ← Bool.not_eq_true, same_iff, Volume.isFile_iff]
  constructor
  · rintro ⟨apart, place, denotes⟩
    by_cases own : volume.Denotes image place
    · exact .inr ⟨apart, place, denotes, own⟩
    · exact .inl ⟨place, denotes, own⟩
  · rintro (⟨place, denotes, other⟩ | ⟨apart, place, denotes, -⟩)
    · exact ⟨fun same => not_otherFile_of_same present same ⟨place, denotes, other⟩, place, denotes⟩
    · exact ⟨apart, place, denotes⟩

theorem locate?_eq_some_iff (present : volume.Denotes image here) (found : String) :
    locate? volume.toFileSystem image link extra = some found ↔
      IsFirst (fun path => OtherFile volume image path ∨ OtherSpelling volume image path)
        (candidatePaths image link extra) found := by
  rw [locate?, List.find?_eq_some_iff_append, taken_iff present]
  simp only [Bool.not_eq_true', ← Bool.not_eq_true, taken_iff present]
  constructor
  · rintro ⟨taken, front, back, split, passed⟩
    exact ⟨front, back, split, taken, passed⟩
  · rintro ⟨front, back, split, taken, passed⟩
    exact ⟨taken, front, back, split, passed⟩

theorem not_otherFile_of_otherSpelling (spelling : OtherSpelling volume image path) :
    ¬OtherFile volume image path := by
  obtain ⟨-, place, denotes, own⟩ := spelling
  rintro ⟨there, denotes_too, other⟩
  exact other (denotes.unique denotes_too ▸ own)

theorem locate?_of_otherSpelling (present : volume.Denotes image here) {front back : List String}
    (split : candidatePaths image link extra = front ++ path :: back)
    (spelling : OtherSpelling volume image path) :
    ∃ found, (found ∈ front ∨ found = path) ∧
      locate? volume.toFileSystem image link extra = some found := by
  have taken := (taken_iff present path).2 (.inr spelling)
  have found : (path :: back).find? (fun path => !Path.same path image && volume.toFileSystem.isFile path) =
      some path := List.find?_cons_of_pos taken
  rw [locate?, split, List.find?_append, found]
  cases earlier : front.find? fun path => !Path.same path image && volume.toFileSystem.isFile path with
  | none => exact ⟨path, .inr rfl, rfl⟩
  | some found => exact ⟨found, .inl (List.mem_of_find?_eq_some earlier), rfl⟩

/-- The image stays out of the answer exactly when another file is in front of each of its other spellings. -/
theorem passesOverImage_iff_preceded (present : volume.Denotes image here) :
    PassesOverImage volume image link extra ↔
      ∀ front path back, candidatePaths image link extra = front ++ path :: back →
        OtherSpelling volume image path → ∃ earlier ∈ front, OtherFile volume image earlier := by
  constructor
  · intro passes front path back split spelling
    obtain ⟨found, place, located⟩ := locate?_of_otherSpelling present split spelling
    have other := passes.other found located
    rcases place with earlier | rfl
    · exact ⟨found, earlier, other⟩
    · exact absurd other (not_otherFile_of_otherSpelling spelling)
  · intro preceded
    constructor
    · intro found located
      obtain ⟨front, back, split, taken, passed⟩ := (locate?_eq_some_iff present found).1 located
      rcases taken with other | spelling
      · exact other
      · obtain ⟨earlier, held, other⟩ := preceded front found back split spelling
        exact absurd (.inl other) (passed earlier held)
    · rintro path ⟨front, back, split, other, passed⟩
      refine (locate?_eq_some_iff present path).2 ⟨front, back, split, .inl other, fun earlier held taken => ?_⟩
      rcases taken with other | spelling
      · exact passed earlier held other
      · obtain ⟨first, rest, rfl⟩ := List.append_of_mem held
        rw [List.append_assoc, List.cons_append] at split
        obtain ⟨before, held, other⟩ := preceded first earlier _ split spelling
        exact passed before (List.mem_append_left _ held) other

/-! Where other spellings come from. -/

/-- A name in a directory that denotes the image is the image's name, and the directory leads to its directory. -/
theorem own_of_joined {directory : List Path.Component} {name : List Char}
    (joined : componentsOf path = directory ++ [.name name]) (denotes : volume.Denotes path here)
    (own : volume.Denotes image here) :
    volume.placeOf directory = volume.placeOf (componentsOf image).dropLast ∧
      componentsOf image = (componentsOf image).dropLast ++ [.name name] := by
  obtain ⟨front, ownName, whole⟩ := own.ends_in_name
  have place : here = volume.placeOf directory ++ [name] := by
    rw [← Volume.placeOf_concat, ← joined]
    exact denotes.settles
  have ownPlace : here = volume.placeOf front ++ [ownName] := by
    rw [← Volume.placeOf_concat, ← whole]
    exact own.settles
  obtain ⟨leads, ends⟩ := List.append_inj' (place.symm.trans ownPlace) rfl
  rw [List.cons.injEq] at ends
  rw [componentsOf, whole, List.dropLast_concat, ends.1]
  exact ⟨leads, rfl⟩

theorem otherSpelling_source (candidate : path ∈ candidatePaths image link extra)
    (spelling : OtherSpelling volume image path) :
    linksRooted link = true ∧ path = link.fileName ∨
      ∃ directory ∈ extra, ∃ name, FromOwnDirectory volume image link directory path name := by
  obtain ⟨apart, place, denotes, own⟩ := spelling
  rcases mem_candidatePaths candidate with itself | ⟨name, directory, linked, within, joined⟩
  · exact .inl itself
  obtain ⟨leads, whole⟩ := own_of_joined joined denotes own
  have other : directory ≠ (componentsOf image).dropLast := by
    intro same
    apply apart
    rw [joined, same, ← whole]
  rcases List.mem_cons.1 within with beside | within
  · exact absurd beside other
  rcases List.mem_cons.1 within with debug | within
  · rw [debug, Volume.placeOf_concat] at leads
    have longer := congrArg List.length leads
    simp at longer
  · obtain ⟨spelling, held, rfl⟩ := List.mem_map.1 within
    have ending : (componentsOf image).getLast? = some (.name name) := by
      rw [whole, List.getLast?_concat]
    exact .inr ⟨spelling, held, name, linked, ending, joined, leads, other⟩

/-- The search takes the first candidate that is another file or another spelling of the image. It passes over the
image exactly when in front of every other spelling of the image there is a candidate that is another file. Such
a spelling is the rooted link itself, or comes from a link with the name of the image and an extra directory that
is the one of the image in another spelling. -/
theorem passesOverImage_iff (volume : Volume) (image : String) (link : DebugLink) (extra : List String)
    (here : List (List Char)) (present : volume.Denotes image here) :
    (∀ found, locate? volume.toFileSystem image link extra = some found ↔
      IsFirst (fun path => OtherFile volume image path ∨ OtherSpelling volume image path)
        (candidatePaths image link extra) found) ∧
    (PassesOverImage volume image link extra ↔
      ∀ front path back, candidatePaths image link extra = front ++ path :: back →
        OtherSpelling volume image path → ∃ earlier ∈ front, OtherFile volume image earlier) ∧
    ∀ path ∈ candidatePaths image link extra, OtherSpelling volume image path →
      linksRooted link = true ∧ path = link.fileName ∨
        ∃ directory ∈ extra, ∃ name, FromOwnDirectory volume image link directory path name := by
  refine ⟨locate?_eq_some_iff present, passesOverImage_iff_preceded present, ?_⟩
  intro path candidate spelling
  exact otherSpelling_source candidate spelling

def twoImages : Volume where
  root := .directory [("app.exe".toList, .file [0x4d, 0x5a]),
    ("sym".toList, .directory [("app.exe".toList, .file [0x4d, 0x5a])])]
  current := []
  refusal? := fun _ => none

theorem twoImages_image : twoImages.Denotes "app.exe" ["app.exe".toList] :=
  ⟨_, by rfl⟩

theorem twoImages_otherSpelling : OtherSpelling twoImages "app.exe" "./app.exe" :=
  ⟨by decide, ["app.exe".toList], ⟨_, by rfl⟩, twoImages_image⟩

theorem twoImages_otherFile : OtherFile twoImages "app.exe" "sym/app.exe" := by
  refine ⟨["sym".toList, "app.exe".toList], ⟨_, by rfl⟩, fun own => ?_⟩
  have meet := own.unique twoImages_image
  exact absurd meet (by decide)

theorem twoImages_candidates :
    candidatePaths "app.exe" ⟨"app.exe", none⟩ [".", "sym"] =
      ["app.exe", ".debug/app.exe", "./app.exe", "sym/app.exe"] := by
  decide +kernel

theorem twoImages_front (path : String) (held : path ∈ ["app.exe", ".debug/app.exe"]) :
    ¬OtherFile twoImages "app.exe" path ∧ ¬OtherSpelling twoImages "app.exe" path := by
  have missing : twoImages.file ".debug/app.exe" = .error .notFound := by rfl
  rcases List.mem_pair.1 held with rfl | rfl
  · exact ⟨not_otherFile_of_same twoImages_image rfl, fun spelling => spelling.1 rfl⟩
  · constructor
    · rintro ⟨place, ⟨data, found⟩, -⟩
      cases missing.symm.trans found
    · rintro ⟨-, place, ⟨data, found⟩, -⟩
      cases missing.symm.trans found

theorem twoImages_taken :
    IsFirst (fun path => OtherFile twoImages "app.exe" path ∨ OtherSpelling twoImages "app.exe" path)
      (candidatePaths "app.exe" ⟨"app.exe", none⟩ [".", "sym"]) "./app.exe" := by
  refine ⟨["app.exe", ".debug/app.exe"], ["sym/app.exe"], twoImages_candidates, .inr twoImages_otherSpelling, ?_⟩
  intro earlier held
  exact not_or.2 (twoImages_front earlier held)

/-- The extra directory `.` leads back to the image, which is the answer although there is another file in
`sym`. -/
theorem not_passesOverImage_currentDirectory :
    twoImages.Denotes "app.exe" ["app.exe".toList] ∧
      locate? twoImages.toFileSystem "app.exe" ⟨"app.exe", none⟩ [".", "sym"] = some "./app.exe" ∧
      twoImages.Denotes "./app.exe" ["app.exe".toList] ∧
      IsFirst (OtherFile twoImages "app.exe") (candidatePaths "app.exe" ⟨"app.exe", none⟩ [".", "sym"])
        "sym/app.exe" ∧
      ¬PassesOverImage twoImages "app.exe" ⟨"app.exe", none⟩ [".", "sym"] := by
  have located := (locate?_eq_some_iff twoImages_image "./app.exe").2 twoImages_taken
  have itself := not_otherFile_of_otherSpelling twoImages_otherSpelling
  refine ⟨twoImages_image, located, ⟨_, by rfl⟩, ?_, fun passes => itself (passes.other _ located)⟩
  refine ⟨["app.exe", ".debug/app.exe"] ++ ["./app.exe"], [], twoImages_candidates, twoImages_otherFile, ?_⟩
  intro earlier held
  rcases List.mem_append.1 held with front | last
  · exact (twoImages_front earlier front).1
  · rw [List.mem_singleton.1 last]
    exact itself

/-- There the other spelling of the image is found, and it comes from an extra directory. -/
theorem passesOverImage_iff_currentDirectory :
    twoImages.Denotes "app.exe" ["app.exe".toList] ∧
      locate? twoImages.toFileSystem "app.exe" ⟨"app.exe", none⟩ [".", "sym"] = some "./app.exe" ∧
      OtherSpelling twoImages "app.exe" "./app.exe" ∧
      ∃ directory ∈ [".", "sym"], ∃ name,
        FromOwnDirectory twoImages "app.exe" ⟨"app.exe", none⟩ directory "./app.exe" name := by
  have searches := passesOverImage_iff twoImages "app.exe" ⟨"app.exe", none⟩ [".", "sym"] _ twoImages_image
  have candidate : "./app.exe" ∈ candidatePaths "app.exe" ⟨"app.exe", none⟩ [".", "sym"] := by
    rw [twoImages_candidates]
    decide
  have source := searches.2.2 "./app.exe" candidate twoImages_otherSpelling
  exact ⟨twoImages_image, (searches.1 "./app.exe").2 twoImages_taken, twoImages_otherSpelling,
    source.resolve_left (by decide)⟩

end Symbolizer.Satellite
