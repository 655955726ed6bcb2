import YamlIndex.Proofs.Project.FileByFile
import YamlIndex.Proofs.Session.Tags

/-!
# Which file the entries of a project are from

The index of a project tags what it makes with the file, and hands out what is remembered under the
path of a file as it finds it.  A question about that file alone leaves entries without a file
there, and another scanner, with another base directory, leaves them with the file as seen from its
own base.  So the entries of a project may come without their file, and then a jump to one of them
goes to the source that it was picked for.

`Tagged` follows a run together with the tags of all that is remembered.  The tags decide which file
each entry of a project says it is from.  It is the right one in every run that asks for the entries
of no file by its path and indexes projects below one base directory only.

## Main results

* `hasTags_of_tagged`: the tags are those of what is remembered.
* `project_files_iff`: when all entries of a project say which file they are from.
* `project_files_of_oneBase`: they do so while one base directory is used.
-/

namespace YamlIndex

open Project (Scanner)

namespace Session

/-! ## Tags of a project -/

/-- The tag of the entries that a session gives for a file of a project. -/
def fileTag (session : Session) (tags : Tags) (kind : EntryKind) (scanner : Scanner)
    (location : Location) : Option FileMeta :=
  session.tagAt tags kind (scanner.pathOf location) (some (scanner.metaOf location))

section FileTags

variable {session opened : Session} {tags : Tags} {kind : EntryKind} {scanner : Scanner}
  {location : Location} {lines : List String}

theorem fileTag_of_fileLines (h : session.fileLines scanner location = some (lines, opened)) :
    opened.fileTag tags kind scanner location = session.fileTag tags kind scanner location := by
  rcases fileLines_cases h with ⟨-, rfl⟩ | ⟨-, rfl⟩
  · rfl
  · have hSlot : Slot.entries kind ≠ .lines := by simp
    rw [fileTag, tagAt, fileTag, tagAt, remember, Cache.get?_put_slot session.cache hSlot]

theorem HasTags.fileLines (h : session.HasTags tags)
    (hLines : session.fileLines scanner location = some (lines, opened)) :
    opened.HasTags tags := by
  rcases fileLines_cases hLines with ⟨-, rfl⟩ | ⟨-, rfl⟩
  · exact h
  · exact h.remember .lines (by simp) _ lines

/-- The entries of a file of a project say that they are from the file that is the tag under its
path, or from this file when they had to be made, and this is what they are remembered with. -/
theorem HasTags.fileEntries (h : session.HasTags tags) (kind : EntryKind) (scanner : Scanner)
    (location : Location) (lines : List String) :
    let result := session.fileEntries kind (scanner.metaOf location) lines
    let tag := session.fileTag tags kind scanner location
    result.2.HasTags (tags.set kind (scanner.pathOf location) tag) ∧
      ∀ entry ∈ result.1, kind.file entry = tag := by
  dsimp only
  rw [fileTag, ← Scanner.path_metaOf]
  rcases fileEntries_cases session kind (scanner.metaOf location) lines with
    ⟨entries, hGet, hEq⟩ | ⟨entries, hGet, hMade, hEq⟩
  · rw [hEq, tagAt_of_some hGet, Tags.set_same]
    exact ⟨h, h.get? hGet⟩
  · have hNew : ∀ entry ∈ entries, kind.file entry = some (scanner.metaOf location) := by
      intro entry hEntry
      rw [hMade] at hEntry
      obtain ⟨made, -, rfl⟩ := List.mem_map.mp hEntry
      exact kind.file_within made _
    rw [hEq, tagAt_of_none hGet]
    exact ⟨(h.tree _ lines).rememberEntries hNew _, hNew⟩

/-- The entries that a session gives for a file of a project say that they are from its tag. -/
theorem HasTags.file_of_mem (h : session.HasTags tags) {entry : kind.Entry}
    (hEntry : entry ∈ session.entriesOf kind scanner location) :
    kind.file entry = session.fileTag tags kind scanner location := by
  rw [entriesOf] at hEntry
  cases hLines : session.fileLines scanner location with
  | none =>
      rw [hLines] at hEntry
      exact absurd hEntry (List.not_mem_nil)
  | some result =>
      obtain ⟨lines, opened⟩ := result
      rw [hLines] at hEntry
      rw [← fileTag_of_fileLines hLines]
      exact ((h.fileLines hLines).fileEntries kind scanner location lines).2 entry hEntry

end FileTags

/-- The tags after the entries of the files at the given locations were collected. -/
def tagsCollected (kind : EntryKind) (scanner : Scanner) :
    List Location → Session → Tags → Tags
  | [], _, tags => tags
  | location :: rest, session, tags =>
    match session.fileLines scanner location with
    | none => tagsCollected kind scanner rest session tags
    | some (lines, opened) =>
      tagsCollected kind scanner rest (opened.fileEntries kind (scanner.metaOf location) lines).2
        (tags.set kind (scanner.pathOf location) (opened.fileTag tags kind scanner location))

theorem HasTags.collect {session : Session} {tags : Tags} (h : session.HasTags tags)
    (kind : EntryKind) (scanner : Scanner) (locations : List Location) :
    (collect kind scanner locations session).2.HasTags
      (tagsCollected kind scanner locations session tags) := by
  induction locations generalizing session tags with
  | nil => exact h
  | cons location rest ih =>
      rw [Session.collect, tagsCollected]
      cases hLines : session.fileLines scanner location with
      | none => exact ih h
      | some result =>
          obtain ⟨lines, opened⟩ := result
          exact ih ((h.fileLines hLines).fileEntries kind scanner location lines).1

/-! ## Tags along a run -/

/-- The tags after a question; one that fails leaves them. -/
def tagsAsked (session : Session) (tags : Tags) : Question → Tags
  | .lines _ => tags
  | .entries kind source =>
    if (session.entries kind source).toBool then
      tags.set kind source.key (session.tagAt tags kind source.key none)
    else tags

/-- The tags after a project was indexed. -/
def tagsIndexed (session : Session) (tags : Tags) (kind : EntryKind) (scanner : Scanner) : Tags :=
  match scanner.list with
  | .ok listing => tagsCollected kind scanner listing.files session tags
  | .error _ => tags

/-- The tags after an action. -/
def tagsAfter (session : Session) (tags : Tags) : Action → Tags
  | .project kind scanner => session.tagsIndexed tags kind scanner
  | action =>
    match session.question? action with
    | none => tags
    | some question => session.tagsAsked tags question

theorem tagsAfter_cases (session : Session) (tags : Tags) (action : Action) :
    (∃ kind scanner, action = .project kind scanner ∧
        session.tagsAfter tags action = session.tagsIndexed tags kind scanner) ∨
      ((∀ kind scanner, action ≠ .project kind scanner) ∧
        session.tagsAfter tags action =
          match session.question? action with
          | none => tags
          | some question => session.tagsAsked tags question) := by
  cases action with
  | project kind scanner => exact .inl ⟨kind, scanner, rfl, rfl⟩
  | _ => exact .inr ⟨by simp, rfl⟩

/-- The sessions that begin with nothing remembered, with the tags of what they remember.  Between
two actions anything may happen to the editor. -/
inductive Tagged : Session → Tags → Prop where
  | start {session : Session} (hEmpty : ∀ slot key, session.cache.record? slot key = none) :
      Tagged session fun _ _ => none
  | perform {session : Session} {tags : Tags} (hSession : Tagged session tags)
      (action : Action) : Tagged (session.perform action) (session.tagsAfter tags action)
  | outside {session : Session} {tags : Tags} (hSession : Tagged session tags)
      (editor : Editor) : Tagged { session with editor } tags

theorem HasTags.asked {session : Session} {tags : Tags} (h : session.HasTags tags)
    (question : Question) : (session.asked question).HasTags (session.tagsAsked tags question) := by
  cases question with
  | lines source =>
      rw [Session.asked, tagsAsked]
      cases hLines : session.lines source with
      | error error => exact h
      | ok result => exact h.lines hLines
  | entries kind source =>
      rw [Session.asked, tagsAsked]
      cases hEntries : session.entries kind source with
      | error error => exact h
      | ok result => exact (h.entries hEntries).1

theorem HasTags.perform {session : Session} {tags : Tags} (h : session.HasTags tags)
    (action : Action) : (session.perform action).HasTags (session.tagsAfter tags action) := by
  rcases tagsAfter_cases session tags action with
    ⟨kind, scanner, rfl, hEq⟩ | ⟨hProject, hEq⟩
  · rw [hEq, Session.perform, tagsIndexed, projectEntries]
    cases scanner.list with
    | error error => exact h
    | ok listing => exact h.collect kind scanner listing.files
  -- behind its question the action only takes records away
  · have hAsked : (session.afterQuestion action).HasTags (session.tagsAfter tags action) := by
      rw [hEq, afterQuestion]
      cases session.question? action with
      | none => exact h
      | some question => exact h.asked question
    exact hAsked.of_records (record?_of_afterQuestion session hProject).2

/-- The tags of a run are those of what is remembered. -/
theorem hasTags_of_tagged {session : Session} {tags : Tags} (h : Tagged session tags) :
    session.HasTags tags := by
  induction h with
  | start hEmpty => exact hasTags_of_empty hEmpty _
  | perform hSession action ih => exact ih.perform action
  | outside hSession editor ih => exact ih

theorem path_of_fileTag {session : Session} {tags : Tags} (h : tags.IsKeyed) {kind : EntryKind}
    {scanner : Scanner} {location : Location} {file : FileMeta}
    (hTag : session.fileTag tags kind scanner location = some file) :
    file.path = scanner.pathOf location := by
  refine path_of_tagAt h (fun given hGiven => ?_) hTag
  rw [← Option.some.inj hGiven, Scanner.path_metaOf]

theorem isKeyed_tagsCollected {tags : Tags} (h : tags.IsKeyed) (kind : EntryKind)
    (scanner : Scanner) (locations : List Location) (session : Session) :
    (tagsCollected kind scanner locations session tags).IsKeyed := by
  induction locations generalizing session tags with
  | nil => exact h
  | cons location rest ih =>
      rw [tagsCollected]
      split
      · exact ih h session
      · exact ih (h.set fun file hFile => path_of_fileTag h hFile) _

theorem isKeyed_tagsAsked {session : Session} {tags : Tags} (h : tags.IsKeyed)
    (question : Question) : (session.tagsAsked tags question).IsKeyed := by
  cases question with
  | lines source => exact h
  | entries kind source =>
      rw [tagsAsked]
      split
      · exact h.set fun file => path_of_tagAt h fun given hGiven => absurd hGiven (by simp)
      · exact h

/-- Along a run, a tag that is a file is one with the path that it is the tag of. -/
theorem isKeyed_of_tagged {session : Session} {tags : Tags} (h : Tagged session tags) :
    tags.IsKeyed := by
  induction h with
  | start hEmpty => exact fun kind key file hFile => absurd hFile (by simp)
  | @perform session tags hSession action ih =>
      rcases tagsAfter_cases session tags action with ⟨kind, scanner, -, hEq⟩ | ⟨-, hEq⟩
      · rw [hEq, tagsIndexed]
        cases scanner.list with
        | error error => exact ih
        | ok listing => exact isKeyed_tagsCollected ih kind scanner listing.files session
      · rw [hEq]
        cases session.question? action with
        | none => exact ih
        | some question => exact isKeyed_tagsAsked ih question
  | outside hSession editor ih => exact ih

/-! ## When entries have their file -/

/-- The source that a jump goes to from entries with the given tag, offered for the given source. -/
def sourceFor (scanner : Scanner) (location : Location) (source : Source)
    (tag : Option FileMeta) : Source :=
  if tag.isSome then .file (scanner.pathOf location) else source

theorem sourceOf_fileTag {session : Session} {tags : Tags} (h : tags.IsKeyed) {kind : EntryKind}
    {scanner : Scanner} {location : Location} (source : Source) :
    sourceOf source (session.fileTag tags kind scanner location) =
      sourceFor scanner location source (session.fileTag tags kind scanner location) := by
  cases hTag : session.fileTag tags kind scanner location with
  | none => rfl
  | some file => exact congrArg Source.file (path_of_fileTag h hTag)

section Projects

variable {session : Session} {tags : Tags} {scanner : Scanner} {listing : Volume.Listing}

/-- In any run, a session answers for the files of a project one by one, and the entries of a file
say that they are from its tag.  All entries say which file they are from exactly when each file
that has any has this file for its tag.  A jump to an entry goes to the file unless it has no tag;
then it goes to the source that the entries were offered for. -/
theorem project_files_iff (h : Tagged session tags) (hTree : scanner.volume.tree.IsWellFormed)
    (hList : scanner.list = .ok listing) (kind : EntryKind) :
    let found := session.entriesOf kind scanner
    let tag := session.fileTag tags kind scanner
    (session.projectEntries kind scanner).map Prod.fst = .ok (listing.files.flatMap found) ∧
      (∀ location ∈ listing.files, ∀ entry ∈ found location, kind.file entry = tag location) ∧
      ((∀ location ∈ listing.files, ∀ entry ∈ found location,
          kind.file entry = some (scanner.metaOf location)) ↔
        ∀ location ∈ listing.files, found location ≠ [] →
          tag location = some (scanner.metaOf location)) ∧
      ∀ (now : Session) source picker jump,
        (now.pick kind source (listing.files.flatMap found) picker).1.result = .ok (some jump) →
          ∃ location ∈ listing.files, ∃ entry ∈ found location, jump.line = kind.line entry ∧
            jump.source = sourceFor scanner location source (tag location) := by
  intro found tag
  have hTags := hasTags_of_tagged h
  have hFiles : ∀ location ∈ listing.files, ∀ entry ∈ found location,
      kind.file entry = tag location :=
    fun location _ entry hEntry => hTags.file_of_mem hEntry
  refine ⟨projectEntries_eq_flatMap hTree hList session kind, hFiles, ⟨?_, ?_⟩, ?_⟩
  · intro hRight location hLocation hSome
    obtain ⟨entry, hEntry⟩ := List.exists_mem_of_ne_nil _ hSome
    rw [← hFiles location hLocation entry hEntry]
    exact hRight location hLocation entry hEntry
  · intro hRight location hLocation entry hEntry
    rw [hFiles location hLocation entry hEntry]
    exact hRight location hLocation (List.ne_nil_of_mem hEntry)
  · intro now source picker jump hJump
    obtain ⟨entry, hEntry, hSource, hLine⟩ := exists_of_pick hJump
    obtain ⟨location, hLocation, hFound⟩ := List.mem_flatMap.mp hEntry
    refine ⟨location, hLocation, entry, hFound, hLine, ?_⟩
    rw [hSource, hFiles location hLocation entry hFound]
    exact sourceOf_fileTag (isKeyed_of_tagged h) source

end Projects

/-- A question about one file of a project, after which the project gives its path without it. -/
theorem project_files_iff_after_query :
    let scanner : Scanner := { mixed with base := "/" }
    let session : Session :=
      { editor := { volume := mixed.volume }, cache := { lifetime := 1000 } }
    let asked := session.perform (.entries .path (.file "/a.yaml"))
    ∃ tags, Tagged asked tags ∧ scanner.list = .ok ⟨[["a.yaml"], ["b.yaml"]], []⟩ ∧
      asked.fileTag tags .path scanner ["a.yaml"] = none ∧
      (asked.projectEntries .path scanner).map Prod.fst =
        .ok [{ line := 1, key := "a", text := "a: 1", path := [.key "a"], isItem := false,
               position := none, file := none }] ∧
      ¬∀ location ∈ [["a.yaml"], ["b.yaml"]], ∀ entry ∈ asked.entriesOf .path scanner location,
          entry.file = some (scanner.metaOf location) := by
  intro scanner session asked
  have hStart : Tagged session fun _ _ => none :=
    .start (Cache.record?_clear { lifetime := 1000 })
  have hAsked := hStart.perform (.entries .path (.file "/a.yaml"))
  have hList : scanner.list = .ok ⟨[["a.yaml"], ["b.yaml"]], []⟩ := list_mixed
  have hTag : asked.fileTag (session.tagsAfter (fun _ _ => none)
      (.entries .path (.file "/a.yaml"))) .path scanner ["a.yaml"] = none := by decide +kernel
  have hFound : asked.entriesOf .path scanner ["a.yaml"] =
      [{ line := 1, key := "a", text := "a: 1", path := [.key "a"], isItem := false,
         position := none, file := none }] := by decide +kernel
  have hNone : asked.entriesOf .path scanner ["b.yaml"] = [] := by decide +kernel
  have hTree : scanner.volume.tree.IsWellFormed := isWellFormed_mixed
  obtain ⟨hAnswer, -, hIff, -⟩ := project_files_iff hAsked hTree hList .path
  refine ⟨_, hAsked, hList, hTag, ?_, fun hRight => ?_⟩
  · refine hAnswer.trans (congrArg Except.ok ?_)
    rw [List.flatMap_cons, List.flatMap_cons, List.flatMap_nil, hFound, hNone, List.append_nil]
    rfl
  · have hWrong := hIff.mp hRight ["a.yaml"] List.mem_cons_self (by rw [hFound]; simp)
    rw [hTag] at hWrong
    exact absurd hWrong (by simp)

/-! ## While one base directory is used -/

/-- The tags below one base directory: the focus has none, and any other key is the path of a file.
-/
def baseTags (base : String) : Tags :=
  fun _ key => if key = Source.focusKey then none else some (FileMeta.ofPath base key)

/-- The sessions that begin with nothing remembered, ask for the entries of no file by its path and
index projects below one base directory only.  Between two actions anything may happen to the
editor. -/
inductive OneBase (base : String) : Session → Prop where
  | start {session : Session} (hEmpty : ∀ slot key, session.cache.record? slot key = none) :
      OneBase base session
  | perform {session : Session} {action : Action} (hSession : OneBase base session)
      (hSource : ∀ kind source, session.question? action = some (.entries kind source) →
        source = .focus)
      (hBase : ∀ kind scanner, action = .project kind scanner → scanner.base = base) :
      OneBase base (session.perform action)
  | outside {session : Session} (hSession : OneBase base session) (editor : Editor) :
      OneBase base { session with editor }

section OneBase

variable {session : Session} {scanner : Scanner} {listing : Volume.Listing}

theorem baseTags_pathOf {location : Location} (hKey : Source.focusKey ≠ scanner.pathOf location)
    (kind : EntryKind) :
    baseTags scanner.base kind (scanner.pathOf location) = some (scanner.metaOf location) := by
  rw [baseTags, if_neg (Ne.symm hKey), Scanner.metaOf]

theorem fileTag_baseTags {location : Location} (hKey : Source.focusKey ≠ scanner.pathOf location)
    (session : Session) (kind : EntryKind) :
    session.fileTag (baseTags scanner.base) kind scanner location =
      some (scanner.metaOf location) := by
  rw [fileTag, ← baseTags_pathOf hKey kind, tagAt_self]

/-- What is collected below the base directory has the tags that it should have. -/
theorem tagsCollected_baseTags (kind : EntryKind) {locations : List Location}
    (hKeys : ∀ location ∈ locations, Source.focusKey ≠ scanner.pathOf location)
    (session : Session) :
    tagsCollected kind scanner locations session (baseTags scanner.base) =
      baseTags scanner.base := by
  induction locations generalizing session with
  | nil => rfl
  | cons location rest ih =>
      have hHere := hKeys location List.mem_cons_self
      have hRest : ∀ other ∈ rest, Source.focusKey ≠ scanner.pathOf other :=
        fun other hOther => hKeys other (List.mem_cons_of_mem _ hOther)
      rw [tagsCollected]
      split
      · exact ih hRest session
      · rw [fileTag_baseTags hHere, ← baseTags_pathOf hHere kind, Tags.set_same]
        exact ih hRest _

theorem focusKey_ne_pathOf (hList : scanner.list = .ok listing) :
    ∀ location ∈ listing.files, Source.focusKey ≠ scanner.pathOf location := by
  intro location hLocation
  rw [← Scanner.path_metaOf]
  exact focusKey_ne_path hList hLocation

theorem hasTags_of_oneBase {base : String} (h : OneBase base session) :
    session.HasTags (baseTags base) := by
  induction h with
  | start hEmpty => exact hasTags_of_empty hEmpty _
  | @perform session action hSession hSource hBase ih =>
      -- no action changes these tags, so the invariant is the one of any run, for fixed tags
      have hSame : session.tagsAfter (baseTags base) action = baseTags base := by
        rcases tagsAfter_cases session (baseTags base) action with
          ⟨kind, scanner, hAction, hEq⟩ | ⟨-, hEq⟩
        · rw [hEq, tagsIndexed, ← hBase kind scanner hAction]
          cases hList : scanner.list with
          | error error => rfl
          | ok listing => exact tagsCollected_baseTags kind (focusKey_ne_pathOf hList) session
        · rw [hEq]
          cases hQuestion : session.question? action with
          | none => rfl
          | some question =>
              cases question with
              | lines source => rfl
              | entries kind source =>
                  obtain rfl := hSource kind source hQuestion
                  have hNone : baseTags base kind Source.focus.key = none := if_pos rfl
                  have hSelf := tagAt_self session (baseTags base) kind Source.focus.key
                  rw [hNone] at hSelf
                  show session.tagsAsked _ _ = _
                  rw [tagsAsked, hSelf, ← hNone, Tags.set_same, ite_self]
      rw [← hSame]
      exact ih.perform action
  | outside hSession editor ih => exact ih

/-- While no file is asked about by its path and one base directory is used, every entry of a
project says which file it is from, and a jump to it goes there. -/
theorem project_files_of_oneBase (h : OneBase scanner.base session)
    (hTree : scanner.volume.tree.IsWellFormed) (hList : scanner.list = .ok listing)
    (kind : EntryKind) :
    let found := session.entriesOf kind scanner
    (session.projectEntries kind scanner).map Prod.fst = .ok (listing.files.flatMap found) ∧
      (∀ location ∈ listing.files, ∀ entry ∈ found location,
        kind.file entry = some (scanner.metaOf location)) ∧
      ∀ (now : Session) source picker jump,
        (now.pick kind source (listing.files.flatMap found) picker).1.result = .ok (some jump) →
          ∃ location ∈ listing.files, ∃ entry ∈ found location, jump.line = kind.line entry ∧
            jump.source = .file (scanner.pathOf location) := by
  intro found
  have hFiles : ∀ location ∈ listing.files, ∀ entry ∈ found location,
      kind.file entry = some (scanner.metaOf location) := by
    intro location hLocation entry hEntry
    rw [(hasTags_of_oneBase h).file_of_mem hEntry]
    exact fileTag_baseTags (focusKey_ne_pathOf hList location hLocation) session kind
  refine ⟨projectEntries_eq_flatMap hTree hList session kind, hFiles, ?_⟩
  intro now source picker jump hJump
  obtain ⟨entry, hEntry, hSource, hLine⟩ := exists_of_pick hJump
  obtain ⟨location, hLocation, hFound⟩ := List.mem_flatMap.mp hEntry
  refine ⟨location, hLocation, entry, hFound, hLine, ?_⟩
  rw [hSource, hFiles location hLocation entry hFound]
  exact congrArg Source.file (Scanner.path_metaOf scanner location)

end OneBase

end Session

end YamlIndex
