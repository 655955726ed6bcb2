import YamlIndex.Proofs.OtherFiles
import YamlIndex.Proofs.Session.Actions
import YamlIndex.Proofs.Session.Tags

/-!
# The cache is transparent

A session whose files are always named the same way never answers a question about a file with
anything stale: what is remembered under the path of a file is made from what the file holds now.

The invariant `IsTransparent` is one of all records, those that have expired included, for a query
may find any part of them alive and any other part gone.  An edit under the name of the focus keeps
it because it forgets what is under the path of the file as well; this takes that the focus is on
one of the names, which a landing provides only if no entry that is remembered leads elsewhere.
The key of the focus itself is outside the invariant.

## Main results

* `IsTransparent.perform`: no action breaks the invariant.
* `answers_of_reachable`: the answers about a file are those that its present lines give.
-/

namespace YamlIndex

/-! ## What is remembered of one source -/

namespace Session

section Source

variable {session : Session} {source : Source}

/-- Whatever is remembered of a source is made from the lines that the source holds now. -/
def IsCurrent (session : Session) (source : Source) : Prop :=
  ∀ slot record, session.cache.record? slot source.key = some record →
    ∃ lines, session.editor.readLines source = .ok lines ∧
      slot.IsMade session.reader lines lines record.value

theorem IsCurrent.comesFrom (h : session.IsCurrent source) {lines : List String}
    (hRead : session.editor.readLines source = .ok lines) :
    session.cache.ComesFrom source.key session.reader (fun _ : Unit => lines)
      fun _ => ((), ()) := by
  intro slot record hRecord
  obtain ⟨present, hPresent, hMade⟩ := h slot record hRecord
  rw [hRead] at hPresent
  cases hPresent
  exact hMade

theorem IsCurrent.get?_eq_none (h : session.IsCurrent source) {error : EditorError}
    (hRead : session.editor.readLines source = .error error) (slot : Slot) :
    session.cache.get? slot source.key = none := by
  cases hGet : session.cache.get? slot source.key with
  | none => rfl
  | some value =>
      obtain ⟨record, hRecord, -⟩ := Cache.exists_record?_of_get? hGet
      obtain ⟨lines, hLines, -⟩ := h slot record hRecord
      rw [hRead] at hLines
      exact absurd hLines (by simp)

/-- A query that leaves records of the present lines leaves what is remembered current. -/
theorem isCurrent_of_comesFrom {before after : Session} (hExtends : Extends source.key before after)
    {lines : List String} (hRead : before.editor.readLines source = .ok lines)
    {origins : Origins Unit}
    (hFrom : after.cache.ComesFrom source.key before.reader (fun _ => lines) origins) :
    after.IsCurrent source := by
  intro slot record hRecord
  rw [hExtends.editor, hExtends.reader]
  exact ⟨lines, hRead, hFrom slot record hRecord⟩

theorem eq_of_answer {α β : Type} {answer : Except β α} {present : α}
    (h : answer = .ok present) :
    ∀ other, answer = .ok other → other = (fun _ : Unit => present) () := by
  intro other hOther
  rw [h] at hOther
  cases hOther
  rfl

theorem IsCurrent.lines (h : session.IsCurrent source) :
    (session.lines source).map Prod.fst = session.editor.readLines source ∧
      (session.after (session.lines source)).IsCurrent source := by
  cases hLines : session.lines source with
  | error error =>
      rcases lines_cases session source with ⟨_, -, hEq⟩ | ⟨-, _, -, hEq⟩ | ⟨-, _, hRead, hEq⟩
      · exact absurd (hEq.symm.trans hLines) (by simp)
      · exact absurd (hEq.symm.trans hLines) (by simp)
      · cases hEq.symm.trans hLines
        exact ⟨hRead.symm, h⟩
  | ok result =>
      obtain ⟨lines, after⟩ := result
      cases hRead : session.editor.readLines source with
      | error error =>
          rw [Session.lines, h.get?_eq_none hRead .lines, hRead] at hLines
          exact absurd hLines (by simp [Except.map])
      | ok present =>
          obtain ⟨rfl, hFrom⟩ :=
            lines_spec () (h.comesFrom hRead) (eq_of_answer hRead) hLines
          exact ⟨rfl, isCurrent_of_comesFrom (extends_lines hLines) hRead hFrom⟩

/-- The entries of a source are those of its present lines. -/
theorem IsCurrent.entries (h : session.IsCurrent source) (kind : EntryKind) :
    (session.entries kind source).map Prod.fst =
        (session.editor.readLines source).map
          (fun lines => entriesWith (readTree session.reader lines) lines kind) ∧
      (session.after (session.entries kind source)).IsCurrent source := by
  cases hEntries : session.entries kind source with
  | error error =>
      rcases entries_cases session kind source with
        ⟨_, -, hEq⟩ | ⟨-, _, _, -, hEq⟩ | ⟨-, failed, hLines, hEq⟩
      · exact absurd (hEq.symm.trans hEntries) (by simp)
      · exact absurd (hEq.symm.trans hEntries) (by simp)
      · cases hEq.symm.trans hEntries
        have hRead := h.lines.1
        rw [hLines] at hRead
        rw [← hRead]
        exact ⟨rfl, h⟩
  | ok result =>
      obtain ⟨entries, after⟩ := result
      cases hRead : session.editor.readLines source with
      | error error =>
          have hLines := h.lines.1
          rcases entries_cases session kind source with
            ⟨_, hGet, -⟩ | ⟨-, _, _, hEq, -⟩ | ⟨-, _, -, hEq⟩
          · rw [h.get?_eq_none hRead] at hGet
            exact absurd hGet (by simp)
          · rw [hEq, hRead] at hLines
            exact absurd hLines (by simp [Except.map])
          · exact absurd (hEq.symm.trans hEntries) (by simp)
      | ok present =>
          obtain ⟨rfl, hFrom⟩ :=
            entries_spec () (h.comesFrom hRead) (eq_of_answer hRead) hEntries
          exact ⟨rfl, isCurrent_of_comesFrom (extends_entries hEntries) hRead hFrom⟩

end Source

/-! ## Files with one name each -/

/-- The paths that files are named by: each file has one, and none is the key of the focus. -/
structure IsNaming (names : String → Prop) : Prop where
  oneName : ∀ path other location, names path → names other →
    Editor.locationOf path = .ok location → Editor.locationOf other = .ok location → path = other
  notFocusKey : ¬ names Source.focusKey

end Session

/-- Whether a source names a file by one of the paths, if it names one. -/
def Source.IsNamed (names : String → Prop) : Source → Prop
  | .focus => True
  | .file path => names path

/-- Whether an action names files by the given paths only, and is none on a project. -/
def Action.IsNamed (names : String → Prop) : Action → Prop
  | .entries _ source => source.IsNamed names
  | .keys source _ _ => source.IsNamed names
  | .find source _ _ => source.IsNamed names
  | .pick kind source offered _ =>
    source.IsNamed names ∧
      ∀ entry ∈ offered, ∀ file, kind.file entry = some file → names file.path
  | .jumpTo _ source _ => source.IsNamed names
  | .jumpBack source _ => source.IsNamed names
  | .edit source _ _ => source.IsNamed names
  | .saved _ => True
  | .forget _ => True
  | .advance _ => True
  | .project _ _ => False

namespace Session

/-- What is remembered of each named file is current, the focus is on one of them, and no entry
that is remembered leads elsewhere. -/
structure IsTransparent (names : String → Prop) (session : Session) : Prop where
  current : ∀ path, names path → session.IsCurrent (.file path)
  focus : ∀ path, session.editor.current = some path → names path
  untagged : session.IsUntagged

section Steps

variable {names : String → Prop} {session : Session}

/-- A source that is named stands for a file that is. -/
theorem IsTransparent.names_of_pathOf (h : session.IsTransparent names) {source : Source}
    (hSource : source.IsNamed names) {path : String}
    (hPath : session.editor.pathOf source = .ok path) : names path := by
  cases source with
  | focus =>
      rw [Editor.pathOf] at hPath
      cases hCurrent : session.editor.current with
      | none => simp [hCurrent] at hPath
      | some current =>
          simp only [hCurrent, Except.ok.injEq] at hPath
          subst hPath
          exact h.focus current hCurrent
  | file name =>
      rw [Editor.pathOf] at hPath
      cases hPath
      exact hSource

/-- What is remembered of one source does not touch the others. -/
theorem IsCurrent.of_extends {before after : Session} {key : String} {source : Source}
    (h : before.IsCurrent source) (hExtends : Extends key before after) (hKey : source.key ≠ key) :
    after.IsCurrent source := by
  intro slot record hRecord
  rw [hExtends.others slot source.key hKey] at hRecord
  rw [hExtends.editor, hExtends.reader]
  exact h slot record hRecord

/-- A query about a named source keeps all that is remembered of named files current. -/
theorem IsTransparent.extends (hNames : IsNaming names) (h : session.IsTransparent names)
    {after : Session} {source : Source} (hSource : source.IsNamed names)
    (hExtends : Extends source.key session after)
    (hOwn : session.IsCurrent source → after.IsCurrent source) (hUntagged : after.IsUntagged) :
    after.IsTransparent names where
  current path hPath := by
    cases source with
    | focus =>
        have hKey : path ≠ Source.focusKey := by
          rintro rfl
          exact hNames.notFocusKey hPath
        exact (h.current path hPath).of_extends hExtends hKey
    | file name =>
        by_cases hName : path = name
        · subst hName
          exact hOwn (h.current path hPath)
        · exact (h.current path hPath).of_extends hExtends hName
  focus path hPath := by
    rw [hExtends.editor] at hPath
    exact h.focus path hPath
  untagged := hUntagged

theorem IsTransparent.afterLines (hNames : IsNaming names) (h : session.IsTransparent names)
    {source : Source} (hSource : source.IsNamed names) :
    (session.after (session.lines source)).IsTransparent names := by
  cases hLines : session.lines source with
  | error error => exact h
  | ok result =>
      refine h.extends hNames hSource (extends_lines hLines) (fun hOwn => ?_)
        (h.untagged.lines hLines)
      have hAfter := hOwn.lines.2
      rw [hLines] at hAfter
      exact hAfter

theorem IsTransparent.afterEntries (hNames : IsNaming names) (h : session.IsTransparent names)
    (kind : EntryKind) {source : Source} (hSource : source.IsNamed names) :
    (session.after (session.entries kind source)).IsTransparent names := by
  cases hEntries : session.entries kind source with
  | error error => exact h
  | ok result =>
      refine h.extends hNames hSource (extends_entries hEntries) (fun hOwn => ?_)
        (h.untagged.entries hEntries).1
      have hAfter := (hOwn.entries kind).2
      rw [hEntries] at hAfter
      exact hAfter

/-- Fewer records and the same lines keep what is remembered current. -/
theorem IsCurrent.of_records {before after : Session} {source : Source}
    (h : before.IsCurrent source) (hReader : after.reader = before.reader)
    (hRecords : ∀ slot record, after.cache.record? slot source.key = some record →
      before.cache.record? slot source.key = some record ∧
        after.editor.readLines source = before.editor.readLines source) :
    after.IsCurrent source := by
  intro slot record hRecord
  obtain ⟨hBefore, hLines⟩ := hRecords slot record hRecord
  rw [hLines, hReader]
  exact h slot record hBefore

/-- A landing on a named source keeps the invariant. -/
theorem IsTransparent.lands (h : session.IsTransparent names) {after : Session} {source : Source}
    (hSource : source.IsNamed names) (hLands : Lands source session after) :
    after.IsTransparent names where
  current path hPath := by
    refine (h.current path hPath).of_records hLands.reader fun slot record hRecord => ?_
    rw [hLands.cache] at hRecord
    exact ⟨hRecord, Editor.readLines_of_volume hLands.volume path⟩
  focus path hPath := by
    obtain ⟨focus, hOf, hCurrent⟩ := hLands.current
    rw [hPath, Option.some.injEq] at hCurrent
    subst hCurrent
    exact h.names_of_pathOf hSource hOf
  untagged := by
    refine h.untagged.of_records fun slot key record hRecord => ?_
    rw [hLands.cache] at hRecord
    exact hRecord

theorem IsTransparent.pick (h : session.IsTransparent names) {kind : EntryKind} {source : Source}
    (hSource : source.IsNamed names) {entries : List kind.Entry}
    (hEntries : ∀ entry ∈ entries, ∀ file, kind.file entry = some file → names file.path)
    (picker : Picker) : (session.pick kind source entries picker).2.IsTransparent names := by
  rcases pick_cases session kind source entries picker with hSame | ⟨entry, hEntry, hLands⟩
  · rw [hSame]
    exact h
  · refine h.lands ?_ hLands
    cases hFile : kind.file entry with
    | none => exact hSource
    | some file => exact hEntries entry hEntry file hFile

theorem IsTransparent.jumpTo (hNames : IsNaming names) (h : session.IsTransparent names)
    (kind : EntryKind) {source : Source} (hSource : source.IsNamed names) (picker : Picker) :
    (session.jumpTo kind source picker).2.IsTransparent names := by
  rcases jumpTo_cases session kind source picker with
    ⟨error, -, hSame⟩ | ⟨entries, asked, hEntries, hPick⟩
  · rw [hSame]
    exact h
  · have hAsked := h.afterEntries hNames kind hSource
    rw [hEntries] at hAsked
    rw [hPick]
    refine hAsked.pick hSource (fun entry hEntry file hFile => ?_) picker
    rw [(h.untagged.entries hEntries).2 entry hEntry] at hFile
    exact absurd hFile (by simp)

theorem IsTransparent.jumpBack (hNames : IsNaming names) (h : session.IsTransparent names)
    {source : Source} (hSource : source.IsNamed names) (picker : Picker) :
    (session.jumpBack source picker).2.IsTransparent names := by
  rcases jumpBack_cases session source picker with ⟨-, hSame⟩ | ⟨target, -, hCases⟩
  · rw [hSame]
    exact h
  · have hAsked : (session.lookedFor source target).IsTransparent names := by
      rw [lookedFor_eq]
      cases target.kind with
      | path => exact h.afterLines hNames hSource
      | value => exact h.afterEntries hNames .value hSource
    rcases hCases with hSame | hLands
    · rw [hSame]
      exact hAsked
    · exact hAsked.lands hSource hLands

/-- An edit under either name of a file forgets what is remembered of it, and leaves the lines of
the others. -/
theorem IsTransparent.edit (hNames : IsNaming names) (h : session.IsTransparent names)
    {source : Source} (hSource : source.IsNamed names) (line : Nat)
    (ask : String → Option String) :
    (session.edit source line ask).2.IsTransparent names := by
  rcases edit_cases session source line ask with hSame | ⟨new, editor, hReplace, hEdit⟩
  · rw [hSame]
    exact h
  · obtain ⟨name, location, old, text, hName, hLocation, -, hEditor⟩ :=
      Editor.exists_of_replaceLine hReplace
    obtain ⟨hSameEditor, -, hReader⟩ := forgetEdited_same { session with editor } source
    have hPathOf : editor.pathOf source = session.editor.pathOf source := by
      rw [hEditor]
      cases source <;> rfl
    have hNamed := h.names_of_pathOf hSource hName
    rw [hEdit]
    constructor
    · intro path hPath
      refine (h.current path hPath).of_records hReader fun slot record hRecord => ?_
      obtain ⟨hBefore, hOther⟩ := record?_of_forgetEdited hRecord
      refine ⟨hBefore, ?_⟩
      rw [hSameEditor]
      refine Editor.readLines_of_replaceLine hReplace fun own place hOwn hPlace hAt => ?_
      have hEq : path = own :=
        hNames.oneName path own place hPath (h.names_of_pathOf hSource hOwn) hAt hPlace
      rw [hEq] at hOther
      exact hOther (Editor.path_mem_namesOf (hPathOf.trans hOwn))
    · intro path hPath
      rw [hSameEditor, hEditor] at hPath
      exact h.focus path hPath
    · exact h.untagged.of_records fun slot key record hRecord =>
        (record?_of_forgetEdited hRecord).1

/-- Fewer records over the same editor keep the invariant. -/
theorem IsTransparent.of_records {before after : Session} (h : before.IsTransparent names)
    (hEditor : after.editor = before.editor) (hReader : after.reader = before.reader)
    (hRecords : ∀ slot key record, after.cache.record? slot key = some record →
      before.cache.record? slot key = some record) : after.IsTransparent names where
  current path hPath :=
    (h.current path hPath).of_records hReader fun slot record hRecord =>
      ⟨hRecords slot path record hRecord, by rw [hEditor]⟩
  focus path hPath := h.focus path (hEditor ▸ hPath)
  untagged := h.untagged.of_records hRecords

theorem IsTransparent.perform (hNames : IsNaming names) (h : session.IsTransparent names)
    {action : Action} (hAction : action.IsNamed names) :
    (session.perform action).IsTransparent names := by
  cases action with
  | entries kind source => exact h.afterEntries hNames kind hAction
  | keys source text limit =>
      rw [Session.perform, after_keysStartingWith]
      exact h.afterLines hNames hAction
  | find source query limit =>
      rw [Session.perform, after_find]
      exact h.afterLines hNames hAction
  | pick kind source entries picker => exact h.pick hAction.1 hAction.2 picker
  | jumpTo kind source picker => exact h.jumpTo hNames kind hAction picker
  | jumpBack source picker => exact h.jumpBack hNames hAction picker
  | edit source line ask => exact h.edit hNames hAction line ask
  | saved path =>
      exact h.of_records rfl rfl fun slot key record hRecord => (record?_of_fileSaved hRecord).1
  | forget source =>
      obtain ⟨hEditor, hReader⟩ := forget_same session source
      exact h.of_records hEditor hReader fun slot key record => record?_of_forget
  | advance span =>
      refine h.of_records rfl rfl fun slot key record hRecord => ?_
      rw [← Cache.record?_advance session.cache span]
      exact hRecord
  | project kind scanner => exact absurd hAction id

end Steps

/-! ## Runs -/

/-- The session after files were changed from outside, right after which the given paths were
reported as saved. -/
def changedOutside (session : Session) (volume : Volume) (paths : List String) : Session :=
  paths.foldl fileSaved { session with editor := { session.editor with volume } }

/-- The sessions that begin with nothing remembered and name files by the given paths.  Between two
actions files may change from outside, and of those that are named the changed ones are reported at
once. -/
inductive Reachable (names : String → Prop) : Session → Prop where
  | start {session : Session} (hEmpty : ∀ slot key, session.cache.record? slot key = none)
      (hFocus : ∀ path, session.editor.current = some path → names path) :
      Reachable names session
  | perform {session : Session} {action : Action} (hSession : Reachable names session)
      (hAction : action.IsNamed names) : Reachable names (session.perform action)
  | changed {session : Session} {volume : Volume} {paths : List String}
      (hSession : Reachable names session)
      (hSame : ∀ path, names path → path ∉ paths →
        { session.editor with volume }.readLines (.file path) =
          session.editor.readLines (.file path)) :
      Reachable names (session.changedOutside volume paths)

theorem foldl_fileSaved_same (paths : List String) (session : Session) :
    (paths.foldl fileSaved session).editor = session.editor ∧
      (paths.foldl fileSaved session).reader = session.reader := by
  induction paths generalizing session with
  | nil => exact ⟨rfl, rfl⟩
  | cons path paths ih => exact ih (session.fileSaved path)

theorem record?_of_foldl_fileSaved {paths : List String} {session : Session} {slot : Slot}
    {key : String} {record : Stamped slot.Content}
    (h : (paths.foldl fileSaved session).cache.record? slot key = some record) :
    session.cache.record? slot key = some record ∧ key ∉ paths := by
  induction paths generalizing session with
  | nil => exact ⟨h, by simp⟩
  | cons path paths ih =>
      obtain ⟨hSaved, hRest⟩ := ih h
      obtain ⟨hRecord, hPath⟩ := record?_of_fileSaved hSaved
      refine ⟨hRecord, ?_⟩
      rw [List.mem_cons, not_or]
      exact ⟨hPath, hRest⟩

theorem IsTransparent.changedOutside {names : String → Prop} {session : Session}
    (h : session.IsTransparent names) {volume : Volume} {paths : List String}
    (hSame : ∀ path, names path → path ∉ paths →
      { session.editor with volume }.readLines (.file path) =
        session.editor.readLines (.file path)) :
    (session.changedOutside volume paths).IsTransparent names := by
  obtain ⟨hEditor, hReader⟩ :=
    foldl_fileSaved_same paths { session with editor := { session.editor with volume } }
  constructor
  · intro path hPath
    refine (h.current path hPath).of_records hReader fun slot record hRecord => ?_
    obtain ⟨hBefore, hPaths⟩ := record?_of_foldl_fileSaved hRecord
    exact ⟨hBefore, (congrArg (·.readLines (.file path)) hEditor).trans (hSame path hPath hPaths)⟩
  · intro path hPath
    exact h.focus path ((congrArg Editor.current hEditor).symm.trans hPath)
  · exact h.untagged.of_records fun slot key record hRecord =>
      (record?_of_foldl_fileSaved hRecord).1

theorem isTransparent_of_reachable {names : String → Prop} (hNames : IsNaming names)
    {session : Session} (h : Reachable names session) : session.IsTransparent names := by
  induction h with
  | start hEmpty hFocus =>
      constructor
      · intro path _ slot record hRecord
        rw [hEmpty] at hRecord
        exact absurd hRecord (by simp)
      · exact hFocus
      · intro kind key record hRecord
        rw [hEmpty] at hRecord
        exact absurd hRecord (by simp)
  | perform hSession hAction ih => exact ih.perform hNames hAction
  | changed hSession hSame ih => exact ih.changedOutside hSame

/-- In every session that names its files one way, a question about a file is answered from the
lines that the file holds now, and fails only if it cannot be read now. -/
theorem answers_of_reachable {names : String → Prop} (hNames : IsNaming names)
    {session : Session} (h : Reachable names session) {path : String} (hPath : names path) :
    (∀ kind, (session.entries kind (.file path)).map Prod.fst =
        (session.editor.readLines (.file path)).map
          fun lines => entriesWith (readTree session.reader lines) lines kind) ∧
      (∀ text limit, (session.keysStartingWith (.file path) text limit).map Prod.fst =
        (session.editor.readLines (.file path)).map
          fun lines => YamlIndex.keysStartingWith text lines limit) ∧
      ∀ query limit, (session.find (.file path) query limit).map Prod.fst =
        (session.editor.readLines (.file path)).map
          fun lines => findPath (Path.ofDotted query) lines limit := by
  have hCurrent := (isTransparent_of_reachable hNames h).current path hPath
  refine ⟨fun kind => (hCurrent.entries kind).1, fun text limit => ?_, fun query limit => ?_⟩
  · rw [map_fst_keysStartingWith, hCurrent.lines.1]
  · rw [map_fst_find, hCurrent.lines.1]

/-- A file is read, then edited under the name of the focus, then changed from outside and reported,
and then asked for again. -/
theorem answers_of_reachable_edited :
    let names : String → Prop := (· = "/a.yaml")
    let volume : Volume := { tree := .directory [("a.yaml", .file (.text "a: 1\n"))] }
    let outside : Volume := { tree := .directory [("a.yaml", .file (.text "a: 3\n"))] }
    let session : Session :=
      { editor := { volume, current := some "/a.yaml" }, cache := { lifetime := 1000 } }
    let edited := (session.perform (.entries .value (.file "/a.yaml"))).perform
      (.edit .focus 1 fun _ => some "2")
    let last := (edited.perform (.entries .value (.file "/a.yaml"))).changedOutside outside
      ["/a.yaml"]
    IsNaming names ∧ Reachable names last ∧ names "/a.yaml" ∧
      (last.entries .value (.file "/a.yaml")).map Prod.fst =
        (last.editor.readLines (.file "/a.yaml")).map
          fun lines => entriesWith (readTree last.reader lines) lines .value := by
  intro names volume outside session edited last
  have hNames : IsNaming names := by
    constructor
    · intro path other location hPath hOther _ _
      exact hPath.trans hOther.symm
    · intro hKey
      exact absurd hKey (by decide)
  have hStart : Reachable names session := by
    refine .start (fun slot key => ?_) fun path hPath => ?_
    · rw [Cache.record?]
      split
      · rcases slot with _ | _ | _ | _ <;> rfl
      · rfl
    · exact (Option.some.inj hPath).symm
  have hEdited : Reachable names edited :=
    .perform (.perform hStart
      (show Action.IsNamed names (.entries .value (.file "/a.yaml")) from rfl)) trivial
  have hLast : Reachable names last := by
    refine .changed (.perform hEdited rfl) fun path hPath hNot => ?_
    rw [show path = "/a.yaml" from hPath] at hNot
    exact absurd (List.mem_singleton_self _) hNot
  exact ⟨hNames, hLast, rfl, (answers_of_reachable hNames hLast rfl).1 .value⟩

end Session

end YamlIndex
