import YamlIndex.Proofs.Project.Pipelines

/-!
# A project file by file

A session that is asked for the entries of a project takes one file after the other, and remembers
what it finds on the way.  What it remembers of one file is under the path of that file, so no file
changes the answer for another one: the answer is put together from the answers for each file, all
of them given by the session as it was at first.

## Main results

* `entriesOf_of_answersAlike`: what the entries of a file depend on.
* `collect_eq_flatMap`, `projectEntries_eq_flatMap`: a session answers for each file by itself.
-/

namespace YamlIndex

open Project (Scanner)

namespace Session

/-! ## Sessions that answer alike -/

/-- The second session answers under the key as the first one does. -/
structure AnswersAlike (key : String) (before after : Session) : Prop where
  reader : after.reader = before.reader
  answers : ∀ slot, after.cache.get? slot key = before.cache.get? slot key

theorem AnswersAlike.refl (key : String) (session : Session) :
    AnswersAlike key session session :=
  ⟨rfl, fun _ => rfl⟩

theorem AnswersAlike.trans {key : String} {s t u : Session} (h : AnswersAlike key s t)
    (h' : AnswersAlike key t u) : AnswersAlike key s u :=
  ⟨h'.reader.trans h.reader, fun slot => (h'.answers slot).trans (h.answers slot)⟩

theorem answersAlike_remember (session : Session) (slot : Slot) {key other : String}
    (hKey : other ≠ key) (result : slot.Content) :
    AnswersAlike other session (session.remember slot key result) :=
  ⟨rfl, fun otherSlot => Cache.get?_put_key session.cache slot otherSlot hKey result⟩

theorem answersAlike_tree (session : Session) {key other : String} (hKey : other ≠ key)
    (lines : List String) : AnswersAlike other session (session.tree key lines).2 := by
  rcases snd_tree_cases session key lines with hEq | ⟨tree, hEq⟩
  · rw [hEq]
    exact AnswersAlike.refl _ _
  · rw [hEq]
    exact answersAlike_remember session .tree hKey tree

section Files

variable {session before after opened : Session} {kind : EntryKind} {scanner : Scanner}
  {location : Location} {lines : List String}

theorem answersAlike_fileLines
    (h : session.fileLines scanner location = some (lines, opened)) {other : String}
    (hKey : other ≠ scanner.pathOf location) : AnswersAlike other session opened := by
  rw [← Scanner.path_metaOf] at hKey
  rcases fileLines_cases h with ⟨-, rfl⟩ | ⟨-, rfl⟩
  · exact AnswersAlike.refl _ _
  · exact answersAlike_remember session .lines hKey lines

theorem answersAlike_fileEntries (session : Session) (kind : EntryKind) {file : FileMeta}
    (lines : List String) {other : String} (hKey : other ≠ file.path) :
    AnswersAlike other session (session.fileEntries kind file lines).2 := by
  rcases fileEntries_cases session kind file lines with ⟨_, -, hEq⟩ | ⟨_, -, -, hEq⟩
  · rw [hEq]
    exact AnswersAlike.refl _ _
  · rw [hEq]
    exact (answersAlike_tree session hKey lines).trans (answersAlike_remember _ _ hKey _)

theorem fst_tree (session : Session) (key : String) (lines : List String) :
    (session.tree key lines).1 = session.reader.bind fun read =>
      (session.cache.get? .tree key).or (read (Text.joinLines lines)) := by
  rw [tree]
  cases session.reader with
  | none => rfl
  | some read =>
      rw [Option.bind_some]
      cases session.cache.get? .tree key with
      | some tree => rfl
      | none =>
          dsimp only
          cases read (Text.joinLines lines) <;> rfl

theorem fileEntries_congr (hReader : after.reader = before.reader)
    (hEntries : after.cache.get? (.entries kind) (scanner.pathOf location) =
      before.cache.get? (.entries kind) (scanner.pathOf location))
    (hTree : after.cache.get? .tree (scanner.pathOf location) =
      before.cache.get? .tree (scanner.pathOf location)) (lines : List String) :
    (after.fileEntries kind (scanner.metaOf location) lines).1 =
      (before.fileEntries kind (scanner.metaOf location) lines).1 := by
  rw [fileEntries, fileEntries, Scanner.path_metaOf, hEntries]
  cases before.cache.get? (.entries kind) (scanner.pathOf location) with
  | some entries => rfl
  | none => simp only [extract, fst_tree, hReader, hTree]

/-- The entries that a session gives for one file of a project. -/
def entriesOf (session : Session) (kind : EntryKind) (scanner : Scanner) (location : Location) :
    List kind.Entry :=
  match session.fileLines scanner location with
  | none => []
  | some (lines, opened) => (opened.fileEntries kind (scanner.metaOf location) lines).1

/-- The entries of a file depend on the reader and on what is remembered under its path. -/
theorem entriesOf_of_answersAlike (h : AnswersAlike (scanner.pathOf location) before after) :
    after.entriesOf kind scanner location = before.entriesOf kind scanner location := by
  have hReader := h.reader
  rw [entriesOf, entriesOf, fileLines, fileLines, Scanner.path_metaOf, h.answers]
  cases before.cache.get? .lines (scanner.pathOf location) with
  | some lines =>
      exact fileEntries_congr hReader (h.answers _) (h.answers _) lines
  | none =>
      cases scanner.readLines location with
      | error error => rfl
      | ok lines =>
          show ((after.remember .lines _ lines).fileEntries kind _ lines).1 =
            ((before.remember .lines _ lines).fileEntries kind _ lines).1
          -- both remember the lines now, under a slot that entries do not depend on
          have hSame : ∀ slot, slot ≠ .lines →
              (after.remember .lines (scanner.pathOf location) lines).cache.get? slot
                  (scanner.pathOf location) =
                (before.remember .lines (scanner.pathOf location) lines).cache.get? slot
                  (scanner.pathOf location) := by
            intro slot hSlot
            refine (Cache.get?_put_slot _ hSlot _ _ _).trans ?_
            exact (h.answers slot).trans (Cache.get?_put_slot _ hSlot _ _ _).symm
          apply fileEntries_congr
          · exact hReader
          · exact hSame (.entries kind) (by simp)
          · exact hSame .tree (by simp)

end Files

/-- A session gives the entries of a project file by file, and no file changes the answer for
another one. -/
theorem collect_eq_flatMap (kind : EntryKind) {scanner : Scanner} {locations : List Location}
    (hPaths : (locations.map scanner.pathOf).Nodup) (session : Session) :
    (collect kind scanner locations session).1 =
      locations.flatMap (session.entriesOf kind scanner) := by
  induction locations generalizing session with
  | nil => rfl
  | cons location rest ih =>
      rw [List.map_cons, List.nodup_cons] at hPaths
      obtain ⟨hHere, hRest⟩ := hPaths
      rw [List.flatMap_cons, collect, entriesOf]
      cases hLines : session.fileLines scanner location with
      | none => exact ih hRest session
      | some result =>
          obtain ⟨lines, opened⟩ := result
          show (opened.fileEntries kind (scanner.metaOf location) lines).1 ++
            (collect kind scanner rest
              (opened.fileEntries kind (scanner.metaOf location) lines).2).1 = _
          rw [ih hRest]
          congr 1
          -- the rest is asked later, but this file has written under its own path only
          refine List.flatMap_congr fun other hOther => ?_
          have hKey : scanner.pathOf other ≠ scanner.pathOf location := fun hSame =>
            hHere (hSame ▸ List.mem_map_of_mem hOther)
          apply entriesOf_of_answersAlike
          refine (answersAlike_fileLines hLines hKey).trans (answersAlike_fileEntries _ _ _ ?_)
          rwa [Scanner.path_metaOf]

theorem projectEntries_eq_flatMap {scanner : Scanner} {listing : Volume.Listing}
    (hTree : scanner.volume.tree.IsWellFormed) (hList : scanner.list = .ok listing)
    (session : Session) (kind : EntryKind) :
    (session.projectEntries kind scanner).map Prod.fst =
      .ok (listing.files.flatMap (session.entriesOf kind scanner)) := by
  have hPaths : (listing.files.map scanner.pathOf).Nodup := by
    have hAll := Scanner.nodup_map_pathOf hTree hList
    rw [List.map_append] at hAll
    exact (List.nodup_append.mp hAll).2.1
  rw [projectEntries, hList]
  exact congrArg Except.ok (collect_eq_flatMap kind hPaths session)

end Session

end YamlIndex
