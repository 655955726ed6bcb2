import YamlIndex.Volume

/-!
# Descending a volume

A path that is typed is followed on the volume itself: each step leaves a directory and has to
arrive somewhere, so a slash behind a file, or two dots behind it, lead nowhere.  A directory that
is arrived at can be taken as a volume of its own.

## Main results

* `find?_descend?`: a descent ends at something.
* `find?_below?`: what stands on the volume below a directory stands at the same place below it.
-/

namespace YamlIndex

namespace Location

/-- The text of a location as a path from the root. -/
def absolute (location : Location) : String :=
  if location.isEmpty then "/" else location.text

/-- Where a path starts from, and its steps from there. -/
def route (location : Location) (path : String) : Location × List (List Char) :=
  match path.toList with
  | '/' :: rest => ([], Text.splitAll '/' rest)
  | s => (location, Text.splitAll '/' s)

/-- The locations that the given steps pass, the last of them the one they lead to. -/
def trail : Location → List (List Char) → List Location
  | location, [] => [location]
  | location, name :: rest => location :: trail (location.step name) rest

theorem route_steps (location : Location) (path : String) : (location.route path).2 ≠ [] := by
  unfold route
  split <;> exact Text.splitAll_ne_nil _ _

end Location

namespace FileTree

theorem find?_append (tree : FileTree) (location names : List String) :
    tree.find? (location ++ names) = (tree.find? location).bind fun below => below.find? names := by
  induction location generalizing tree with
  | nil => rfl
  | cons name rest ih =>
    simp only [List.cons_append, find?]
    cases tree.child? name with
    | none => rfl
    | some child => simp [ih]

end FileTree

namespace Volume

/-- Whether a directory stands at a location. -/
def isDirectory (volume : Volume) (location : Location) : Bool :=
  (volume.find? location).any FileTree.isDirectory

/-- One step of a descent. -/
def descendStep (volume : Volume) (location : Location) (name : List Char) : Option Location :=
  let next := location.step name
  if volume.isDirectory location && (volume.find? next).isSome then some next else none

/-- The location that a path leads to from another one; none if it does not lead anywhere. -/
def descend? (volume : Volume) (location : Location) (path : String) : Option Location :=
  if path.isEmpty then none
  else
    let (start, names) := location.route path
    names.foldlM volume.descendStep start

/-- The directory at a location as a volume; none if there is no directory. -/
def below? (volume : Volume) (location : Location) : Option Volume :=
  match volume.find? location with
  | some (.directory entries) =>
    some
      { tree := .directory entries
        locked := volume.locked.filterMap fun text =>
          (location.text.toList.isPrefixOf? text.toList).map String.ofList }
  | _ => none

theorem find?_descendStep {volume : Volume} {location next : Location} {name : List Char}
    (h : volume.descendStep location name = some next) : (volume.find? next).isSome := by
  simp only [descendStep] at h
  split at h
  · rename_i hStep
    cases h
    simp_all
  · exact absurd h (by simp)

theorem find?_foldlM_descendStep {volume : Volume} {start location : Location}
    {names : List (List Char)} (hNames : names ≠ [])
    (h : names.foldlM volume.descendStep start = some location) :
    (volume.find? location).isSome := by
  induction names generalizing start with
  | nil => exact absurd rfl hNames
  | cons name rest ih =>
    rw [List.foldlM_cons] at h
    cases hStep : volume.descendStep start name with
    | none => simp [hStep] at h
    | some next =>
      rw [hStep] at h
      cases rest with
      | nil =>
        cases h
        exact find?_descendStep hStep
      | cons name' rest' => exact ih (by simp) h

theorem find?_descend? {volume : Volume} {start location : Location} {path : String}
    (h : volume.descend? start path = some location) : (volume.find? location).isSome := by
  unfold descend? at h
  split at h
  · exact absurd h (by simp)
  · exact find?_foldlM_descendStep (Location.route_steps start path) h

theorem find?_below? {volume below : Volume} {location : Location} (names : List String)
    (h : volume.below? location = some below) :
    below.find? names = volume.find? (location ++ names) := by
  unfold below? at h
  split at h
  · rename_i hFind
    cases h
    simp only [find?] at hFind ⊢
    rw [FileTree.find?_append, hFind]
    rfl
  · exact absurd h (by simp)

end Volume

end YamlIndex
