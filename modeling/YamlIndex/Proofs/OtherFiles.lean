import YamlIndex.Session.Editor

/-!
# Writing one file

A line is exchanged only in a file that is there.  The names of two files are no front parts of one
another, so whatever else stands on the volume is as before, be it a file, a directory or nothing.
What an editor reads of a path depends on nothing but the contents of the file at its location.

## Main results

* `FileTree.contents?_write_ne`: writing a file leaves the contents of all others.
* `Editor.readLines_of_replaceLine`: exchanging a line leaves the lines of other files.
-/

namespace YamlIndex

namespace FileTree

/-- The contents of the file at a place, if there is one. -/
def contents? (tree : FileTree) (location : List String) : Option Contents :=
  match tree.find? location with
  | some (file contents) => some contents
  | _ => none

theorem contents?_directory_cons (entries : List (String × FileTree)) (name : String)
    (rest : List String) :
    (directory entries).contents? (name :: rest) =
      (entries.lookup name).bind fun child => child.contents? rest := by
  rw [contents?, find?, child?]
  cases entries.lookup name with
  | none => rfl
  | some child => rfl

theorem contents?_file_cons (contents : Contents) (name : String) (rest : List String) :
    (file contents).contents? (name :: rest) = none := rfl

theorem lookup_setEntry_ne {name other : String} (h : other ≠ name) (tree : FileTree)
    (entries : List (String × FileTree)) :
    (setEntry name tree entries).lookup other = entries.lookup other := by
  induction entries with
  | nil => rw [setEntry, List.lookup_cons, beq_eq_false_iff_ne.mpr h]
  | cons entry entries ih =>
      obtain ⟨own, old⟩ := entry
      rw [setEntry]
      by_cases hOwn : own = name
      · subst hOwn
        rw [if_pos rfl, List.lookup_cons, List.lookup_cons, beq_eq_false_iff_ne.mpr h]
      · rw [if_neg hOwn, List.lookup_cons, List.lookup_cons, ih]

theorem setEntry_setEntry (name : String) (a b : FileTree)
    (entries : List (String × FileTree)) :
    setEntry name b (setEntry name a entries) = setEntry name b entries := by
  induction entries with
  | nil => simp [setEntry]
  | cons entry entries ih =>
      obtain ⟨own, old⟩ := entry
      rw [setEntry, setEntry]
      by_cases hOwn : own = name
      · rw [if_pos hOwn, if_pos hOwn, setEntry, if_pos rfl]
      · rw [if_neg hOwn, if_neg hOwn, setEntry, if_neg hOwn, ih]

theorem put_cons (name : String) (rest : List String) (new tree : FileTree) :
    put (name :: rest) new tree =
      directory (setEntry name (put rest new ((tree.entries.lookup name).getD empty))
        tree.entries) := by
  cases tree <;> rfl

/-- Of two trees that are put at one place the second one stays. -/
theorem put_put (location : List String) (a b tree : FileTree) :
    put location b (put location a tree) = put location b tree := by
  induction location generalizing tree with
  | nil => rfl
  | cons name rest ih =>
      rw [put_cons name rest a, put_cons, put_cons, entries, lookup_setEntry, Option.getD_some, ih,
        setEntry_setEntry]

/-- Writing a file that is there leaves the contents of all others. -/
theorem contents?_write_ne {location other : List String} {tree : FileTree} {old : Contents}
    (hOld : tree.contents? location = some old) (h : other ≠ location) (new : Contents) :
    (tree.write location new).contents? other = tree.contents? other := by
  rw [write]
  induction location generalizing tree other with
  | nil =>
      have hFile : tree = file old := by
        cases tree with
        | file contents => exact congrArg file (Option.some.inj hOld)
        | directory entries => exact absurd hOld (by simp [contents?, find?])
      subst hFile
      cases other with
      | nil => exact absurd rfl h
      | cons name rest => rfl
  | cons name rest ih =>
      cases tree with
      | file contents => exact absurd hOld (by simp [contents?_file_cons])
      | directory entries =>
          rw [contents?_directory_cons, Option.bind_eq_some_iff] at hOld
          obtain ⟨child, hChild, hOld⟩ := hOld
          have hPut : put (name :: rest) (file new) (directory entries) =
              directory (setEntry name (put rest (file new) child) entries) := by
            rw [put, hChild]
            rfl
          rw [hPut]
          cases other with
          | nil => rfl
          | cons first others =>
              rw [contents?_directory_cons, contents?_directory_cons]
              by_cases hFirst : first = name
              · subst hFirst
                have hRest : others ≠ rest := fun hEq => h (by rw [hEq])
                rw [lookup_setEntry, hChild]
                exact ih hOld hRest
              · rw [lookup_setEntry_ne hFirst]

end FileTree

namespace Editor

/-- The location that a path names, whatever stands there. -/
def locationOf (path : String) : Except VolumeError Location :=
  Volume.resolve [] (String.ofList (path.toList.dropWhile (· == '/')))

/-- What is read at a location depends on the contents of the file there. -/
theorem readText_congr {before after : Volume} {location : Location}
    (hFile : after.isFile location = true)
    (h : after.tree.contents? location = before.tree.contents? location) :
    after.readText location = before.readText location := by
  rw [Volume.isFile, Volume.find?] at hFile
  rw [FileTree.contents?, FileTree.contents?] at h
  rw [Volume.readText, Volume.readText, Volume.find?, Volume.find?]
  cases hAfter : after.tree.find? location with
  | none => exact absurd hFile (by simp [hAfter])
  | some tree =>
      cases tree with
      | directory entries => exact absurd hFile (by simp [hAfter])
      | file contents =>
          rw [hAfter] at h
          dsimp only at h
          cases hBefore : before.tree.find? location with
          | none => exact absurd h (by simp [hBefore])
          | some old =>
              cases old with
              | directory entries => exact absurd h (by simp [hBefore])
              | file oldContents =>
                  rw [hBefore] at h
                  cases h
                  rfl

theorem isFile_eq_isSome (volume : Volume) (location : Location) :
    volume.isFile location = (volume.tree.contents? location).isSome := by
  rw [Volume.isFile, Volume.find?, FileTree.contents?]
  cases volume.tree.find? location with
  | none => rfl
  | some tree =>
      cases tree with
      | file contents => rfl
      | directory entries => rfl

theorem locate_eq (editor : Editor) (path : String) :
    editor.locate path =
      match locationOf path with
      | .error error => .error (.volume error)
      | .ok location =>
        if editor.volume.isFile location then .ok location else .error (.noFile path) := rfl

/-- A source is open when there is a file at the location of its path and this is a text. -/
theorem openText_eq_ok_iff {editor : Editor} {source : Source} {location : Location}
    {text : String} :
    editor.openText source = .ok (location, text) ↔
      ∃ path, editor.pathOf source = .ok path ∧ locationOf path = .ok location ∧
        editor.volume.isFile location = true ∧ editor.volume.readText location = .ok text := by
  simp only [openText, bind, Except.bind]
  constructor
  · intro h
    cases hPath : editor.pathOf source with
    | error error => simp [hPath] at h
    | ok path =>
        simp only [hPath, locate_eq] at h
        cases hLocation : locationOf path with
        | error error => simp [hLocation] at h
        | ok place =>
            simp only [hLocation] at h
            cases hFile : editor.volume.isFile place with
            | false => simp [hFile] at h
            | true =>
                simp only [hFile, if_true] at h
                cases hRead : editor.volume.readText place with
                | error error => simp [hRead] at h
                | ok read =>
                    rw [hRead] at h
                    cases h
                    exact ⟨path, rfl, hLocation, hFile, hRead⟩
  · rintro ⟨path, hPath, hLocation, hFile, hRead⟩
    simp only [hPath, locate_eq, hLocation, hFile, if_true, hRead]

theorem openText_cases {editor : Editor} {source : Source} {lines : List String}
    (h : editor.readLines source = .ok lines) :
    ∃ location text, editor.openText source = .ok (location, text) ∧
      lines = Text.linesOf text := by
  rw [readLines] at h
  cases hOpen : editor.openText source with
  | error error =>
      rw [hOpen] at h
      exact absurd h (by simp [Except.map])
  | ok opened =>
      rw [hOpen] at h
      cases h
      exact ⟨opened.1, opened.2, rfl, rfl⟩

/-- What is read of a path depends on the contents of the file at its location. -/
theorem readLines_congr {before after : Editor} {path : String}
    (h : ∀ location, locationOf path = .ok location →
      after.volume.tree.contents? location = before.volume.tree.contents? location) :
    after.readLines (.file path) = before.readLines (.file path) := by
  have hOpen : after.openText (.file path) = before.openText (.file path) := by
    simp only [openText, pathOf, bind, Except.bind, locate_eq]
    cases hLocation : locationOf path with
    | error error => rfl
    | ok location =>
        have hContents := h location hLocation
        have hIs : after.volume.isFile location = before.volume.isFile location := by
          rw [isFile_eq_isSome, isFile_eq_isSome, hContents]
        cases hFile : after.volume.isFile location with
        | false =>
            simp only [← hIs, hFile]
            rfl
        | true =>
            simp only [← hIs, hFile, if_true]
            rw [readText_congr hFile hContents]
  rw [readLines, readLines, hOpen]

theorem readLines_of_volume {before after : Editor} (h : after.volume = before.volume)
    (path : String) : after.readLines (.file path) = before.readLines (.file path) :=
  readLines_congr fun location _ => by rw [h]

/-- A line is exchanged in the file that a source stands for, which is there. -/
theorem exists_of_replaceLine {editor changed : Editor} {source : Source} {line : Nat}
    {new : String} (h : editor.replaceLine source line new = .ok changed) :
    ∃ path location old text, editor.pathOf source = .ok path ∧
      locationOf path = .ok location ∧ editor.volume.tree.contents? location = some old ∧
        changed = { editor with volume := editor.volume.write location (.text text) } := by
  simp only [replaceLine, bind, Except.bind] at h
  cases hOpen : editor.openText source with
  | error error => simp [hOpen] at h
  | ok opened =>
      obtain ⟨location, text⟩ := opened
      obtain ⟨path, hPath, hLocation, hFile, -⟩ := openText_eq_ok_iff.mp hOpen
      rw [isFile_eq_isSome, Option.isSome_iff_exists] at hFile
      obtain ⟨old, hOld⟩ := hFile
      simp only [hOpen] at h
      cases hBody : Text.replaceBody line new.toList text.toList with
      | none => simp [hBody] at h
      | some body =>
          simp only [hBody, Except.ok.injEq] at h
          exact ⟨path, location, old, String.ofList body, hPath, hLocation, hOld, h.symm⟩

/-- Exchanging a line leaves the lines of the files at other locations. -/
theorem readLines_of_replaceLine {editor changed : Editor} {source : Source} {line : Nat}
    {new : String} (h : editor.replaceLine source line new = .ok changed) {other : String}
    (hOther : ∀ path location, editor.pathOf source = .ok path → locationOf path = .ok location →
      locationOf other ≠ .ok location) :
    changed.readLines (.file other) = editor.readLines (.file other) := by
  obtain ⟨path, location, old, text, hPath, hLocation, hOld, rfl⟩ := exists_of_replaceLine h
  refine readLines_congr fun place hPlace => ?_
  have hNe : place ≠ location := by
    rintro rfl
    exact hOther path place hPath hLocation hPlace
  exact FileTree.contents?_write_ne hOld hNe _

end Editor

end YamlIndex
