import YamlIndex.Proofs.OtherFiles
import YamlIndex.Proofs.Session.Questions

/-!
# Answers about the focus

Whatever has the focus is remembered under one key, and a landing that moves the focus to another
file leaves the records under this key alone.  So a question about the focus may be answered with
the lines of a file that had the focus before, and with the tree of yet another one.

`Traced` follows a run in which no file changes together with the origins of the records under the
key of the focus: for each of them the path of the file that had the focus when it was made.  The
origins decide every answer.  It is that about the file in focus exactly when the files the answer
is made from give the same, and this is so in every run that does not move the focus.

## Main results

* `comesFrom_of_traced`: the origins tell where the records come from.
* `focus_answers_iff`: when an answer about the focus is right.
* `focus_answers_of_steady`: answers are right while the focus stays.
-/

namespace YamlIndex

namespace Session

/-! ## Origins under the key of the focus -/

/-- The lines of the file at a path, and no lines if it cannot be read. -/
def held (session : Session) (path : String) : List String :=
  (session.editor.readLines (.file path)).toOption.getD []

/-- The path of the file that a source stands for, and the empty one if it stands for none. -/
def fileOf (session : Session) (source : Source) : String :=
  (session.editor.pathOf source).toOption.getD ""

/-- The origins of the records under the key of the focus after a question.  A question that fails
leaves no record, nor does one about a source with another key. -/
def originsAsked (session : Session) (origins : Origins String) : Question → Origins String
  | .lines source =>
    if source.key = Source.focusKey ∧ (session.lines source).toBool = true then
      session.originsAfterLines source.key origins (session.fileOf source)
    else origins
  | .entries kind source =>
    if source.key = Source.focusKey ∧ (session.entries kind source).toBool = true then
      session.originsAfterEntries session.held source.key origins (session.fileOf source) kind
    else origins

/-- The origins of the records under the key of the focus after an action. -/
def originsAfter (session : Session) (origins : Origins String) (action : Action) :
    Origins String :=
  match session.question? action with
  | none => origins
  | some question => session.originsAsked origins question

/-- The sessions that begin with nothing remembered and in which no file ever changes, with the
origins of what they remember of the focus. -/
inductive Traced : Session → Origins String → Prop where
  | start {session : Session} {origins : Origins String}
      (hEmpty : ∀ slot key, session.cache.record? slot key = none) : Traced session origins
  | perform {session : Session} {origins : Origins String} {action : Action}
      (hSession : Traced session origins)
      (hFiles : (session.perform action).editor.volume = session.editor.volume) :
      Traced (session.perform action) (session.originsAfter origins action)

theorem readLines_eq_of_pathOf {editor : Editor} {source : Source} {path : String}
    (h : editor.pathOf source = .ok path) :
    editor.readLines source = editor.readLines (.file path) := by
  have hOpen : editor.openText source = editor.openText (.file path) := by
    rw [Editor.openText, Editor.openText, h]
    rfl
  rw [Editor.readLines, Editor.readLines, hOpen]

/-- What is read of a source is what the file holds that it stands for. -/
theorem eq_held_of_readLines {session : Session} {source : Source} {lines : List String}
    (h : session.editor.readLines source = .ok lines) :
    lines = session.held (session.fileOf source) := by
  cases hPath : session.editor.pathOf source with
  | error error =>
      rw [Editor.readLines, Editor.openText, hPath] at h
      exact absurd h (by simp [bind, Except.bind, Except.map])
  | ok path =>
      rw [readLines_eq_of_pathOf hPath] at h
      rw [held, fileOf, hPath]
      show lines = ((session.editor.readLines (.file path)).toOption).getD []
      rw [h]
      rfl

theorem held_of_volume {before after : Session}
    (h : after.editor.volume = before.editor.volume) : after.held = before.held := by
  funext path
  rw [held, held, Editor.readLines_of_volume h path]

theorem comesFrom_asked {session : Session} {origins : Origins String}
    (hFrom : session.cache.ComesFrom Source.focusKey session.reader session.held origins)
    (question : Question) :
    (session.asked question).cache.ComesFrom Source.focusKey session.reader session.held
      (session.originsAsked origins question) := by
  by_cases hKey : question.source.key = Source.focusKey
  · cases question with
    | lines source =>
        rw [asked, originsAsked]
        cases hLines : session.lines source with
        | error error =>
            rw [if_neg fun h => absurd h.2 (by simp [Except.toBool])]
            exact hFrom
        | ok result =>
            have hKey : source.key = Source.focusKey := hKey
            rw [if_pos ⟨hKey, rfl⟩]
            rw [← hKey] at hFrom ⊢
            exact (lines_spec (session.fileOf source) hFrom
              (fun lines hRead => eq_held_of_readLines hRead) hLines).2
    | entries kind source =>
        rw [asked, originsAsked]
        cases hEntries : session.entries kind source with
        | error error =>
            rw [if_neg fun h => absurd h.2 (by simp [Except.toBool])]
            exact hFrom
        | ok result =>
            have hKey : source.key = Source.focusKey := hKey
            rw [if_pos ⟨hKey, rfl⟩]
            rw [← hKey] at hFrom ⊢
            exact (entries_spec (session.fileOf source) hFrom
              (fun lines hRead => eq_held_of_readLines hRead) hEntries).2
  · have hSame : session.originsAsked origins question = origins := by
      cases question with
      | lines source => rw [originsAsked, if_neg fun h => hKey h.1]
      | entries kind source => rw [originsAsked, if_neg fun h => hKey h.1]
    rw [hSame]
    intro slot record hRecord
    have hOthers := (extends_asked session question).others slot Source.focusKey (Ne.symm hKey)
    exact hFrom slot record (hOthers.symm.trans hRecord)

/-- Each record under the key of the focus was made from the files that its origin names. -/
theorem comesFrom_of_traced {session : Session} {origins : Origins String}
    (h : Traced session origins) :
    session.cache.ComesFrom Source.focusKey session.reader session.held origins := by
  induction h with
  | start hEmpty =>
      intro slot record hRecord
      rw [hEmpty] at hRecord
      exact absurd hRecord (by simp)
  | @perform session origins action hSession hFiles ih =>
      obtain ⟨hReader, hRecords⟩ := record?_of_perform session action
      rw [hReader, held_of_volume hFiles]
      have hAsked : (session.afterQuestion action).cache.ComesFrom Source.focusKey session.reader
          session.held (session.originsAfter origins action) := by
        rw [afterQuestion, originsAfter]
        cases session.question? action with
        | none => exact ih
        | some question => exact comesFrom_asked ih question
      exact fun slot record hRecord => hAsked slot record (hRecords slot record hRecord)

/-! ## When an answer is right -/

/-- The file whose lines a question about the focus is answered with. -/
def seenLines (session : Session) (origins : Origins String) : String :=
  session.linesOrigin Source.focusKey origins (session.fileOf .focus)

/-- The files whose lines and whose tree the entries of the focus are made from. -/
def seenEntries (session : Session) (origins : Origins String) (kind : EntryKind) :
    String × String :=
  session.entriesOrigin Source.focusKey origins (session.fileOf .focus) kind

section Answers

variable {session : Session} {origins : Origins String} {present : List String}

theorem lines_of_traced (h : Traced session origins)
    (hRead : session.editor.readLines .focus = .ok present) :
    (session.lines .focus).map Prod.fst = .ok (session.held (session.seenLines origins)) := by
  cases hLines : session.lines .focus with
  | error error =>
      rcases lines_cases session .focus with ⟨_, -, hEq⟩ | ⟨-, _, -, hEq⟩ | ⟨-, _, hFail, -⟩
      · exact absurd (hEq.symm.trans hLines) (by simp)
      · exact absurd (hEq.symm.trans hLines) (by simp)
      · exact absurd (hFail.symm.trans hRead) (by simp)
  | ok result =>
      exact congrArg Except.ok (lines_spec (session.fileOf .focus) (comesFrom_of_traced h)
        (fun lines hNow => eq_held_of_readLines hNow) hLines).1

theorem entries_of_traced (h : Traced session origins)
    (hRead : session.editor.readLines .focus = .ok present) (kind : EntryKind) :
    (session.entries kind .focus).map Prod.fst =
      .ok (entriesWith (readTree session.reader (session.held (session.seenEntries origins kind).2))
        (session.held (session.seenEntries origins kind).1) kind) := by
  cases hEntries : session.entries kind .focus with
  | error error =>
      have hLines := lines_of_traced h hRead
      rcases entries_cases session kind .focus with
        ⟨_, -, hEq⟩ | ⟨-, _, _, -, hEq⟩ | ⟨-, _, hFail, -⟩
      · exact absurd (hEq.symm.trans hEntries) (by simp)
      · exact absurd (hEq.symm.trans hEntries) (by simp)
      · rw [hFail] at hLines
        exact absurd hLines (by simp [Except.map])
  | ok result =>
      exact congrArg Except.ok (entries_spec (session.fileOf .focus) (comesFrom_of_traced h)
        (fun lines hNow => eq_held_of_readLines hNow) hEntries).1

/-- In a session whose files never change, a question about the focus is answered from the files
that the origins name: the entries from the lines of one file and from the tree of one file, keys
and paths that are looked for from the lines of one file.  The answer is right, that is the one that
the present lines of the file in focus give, exactly when those files give the same. -/
theorem focus_answers_iff (h : Traced session origins)
    (hRead : session.editor.readLines .focus = .ok present) :
    (∀ kind,
        let answer := (session.entries kind .focus).map Prod.fst
        let seen := session.seenEntries origins kind
        let given := entriesWith (readTree session.reader (session.held seen.2))
          (session.held seen.1) kind
        let wanted := entriesWith (readTree session.reader present) present kind
        answer = .ok given ∧ (answer = .ok wanted ↔ given = wanted)) ∧
      (∀ text limit,
        let answer := (session.keysStartingWith .focus text limit).map Prod.fst
        let given :=
          YamlIndex.keysStartingWith text (session.held (session.seenLines origins)) limit
        let wanted := YamlIndex.keysStartingWith text present limit
        answer = .ok given ∧ (answer = .ok wanted ↔ given = wanted)) ∧
      ∀ query limit,
        let answer := (session.find .focus query limit).map Prod.fst
        let given :=
          findPath (Path.ofDotted query) (session.held (session.seenLines origins)) limit
        let wanted := findPath (Path.ofDotted query) present limit
        answer = .ok given ∧ (answer = .ok wanted ↔ given = wanted) := by
  have hSplit : ∀ {α : Type} {answer : Except EditorError α} {given wanted : α},
      answer = .ok given → answer = .ok given ∧ (answer = .ok wanted ↔ given = wanted) := by
    intro α answer given wanted hAnswer
    refine ⟨hAnswer, ?_⟩
    rw [hAnswer, Except.ok.injEq]
  have hLines := lines_of_traced h hRead
  refine ⟨fun kind => ?_, fun text limit => ?_, fun query limit => ?_⟩
  · exact hSplit (entries_of_traced h hRead kind)
  · refine hSplit ?_
    rw [map_fst_keysStartingWith, hLines]
    rfl
  · refine hSplit ?_
    rw [map_fst_find, hLines]
    rfl

end Answers

/-- A jump from one file to another after which the paths of the first one are still given. -/
theorem focus_answers_iff_after_jump :
    let volume : Volume :=
      { tree := .directory
          [("a.yaml", .file (.text "a: 1\n")), ("b.yaml", .file (.text "b: 2\n"))] }
    let session : Session :=
      { editor := { volume, current := some "/a.yaml" }, cache := { lifetime := 1000 } }
    let asked := session.perform (.entries .path .focus)
    let jumped := asked.perform
      (.jumpTo .path (.file "/b.yaml") fun _ => some ⟨⟨0, "", ""⟩, .jump⟩)
    ∃ origins, Traced jumped origins ∧ jumped.editor.readLines .focus = .ok ["b: 2"] ∧
      jumped.seenEntries origins .path = ("/a.yaml", "/a.yaml") ∧
        (jumped.entries .path .focus).map Prod.fst ≠ .ok (scanPaths ["b: 2"]) := by
  intro volume session asked jumped
  have hStart : Traced session fun _ => ("", "") := by
    refine .start fun slot key => ?_
    rw [Cache.record?]
    split
    · rcases slot with _ | _ | _ | _ <;> rfl
    · rfl
  have hAsked : Traced asked _ := .perform hStart rfl
  obtain ⟨origins, hJumped, hSeen⟩ : ∃ origins, Traced jumped origins ∧
      jumped.seenEntries origins .path = ("/a.yaml", "/a.yaml") :=
    ⟨_, .perform hAsked rfl, by decide⟩
  have hRead : jumped.editor.readLines .focus = .ok ["b: 2"] := by decide
  refine ⟨origins, hJumped, hRead, hSeen, fun hAnswer => ?_⟩
  have hSame := ((focus_answers_iff hJumped hRead).1 .path).2.mp hAnswer
  have hOld : jumped.held "/a.yaml" = ["a: 1"] := by decide
  rw [hSeen, hOld] at hSame
  exact absurd hSame (by decide)

/-! ## While the focus stays -/

/-- The sessions that begin with nothing remembered, in which no file ever changes and one file has
the focus all the time.  No file is asked for by a path that is the key of the focus. -/
inductive Steady (path : String) : Session → Prop where
  | start {session : Session} (hEmpty : ∀ slot key, session.cache.record? slot key = none)
      (hFocus : session.editor.current = some path) : Steady path session
  | perform {session : Session} {action : Action} (hSession : Steady path session)
      (hSource : ∀ question, session.question? action = some question →
        question.source ≠ .file Source.focusKey)
      (hFiles : (session.perform action).editor.volume = session.editor.volume)
      (hFocus : (session.perform action).editor.current = some path) :
      Steady path (session.perform action)

section Steady

variable {session : Session} {path : String}

theorem set_const (slot : Slot) (origin : String × String) :
    Origins.set (fun _ => origin) slot origin = fun _ => origin := by
  funext other
  rw [Origins.set, ite_self]

theorem linesOrigin_const (session : Session) (key path : String) :
    session.linesOrigin key (fun _ => (path, path)) path = path := by
  rw [linesOrigin, ite_self]

theorem treeOrigin_const (session : Session) (key path : String) :
    session.treeOrigin key (fun _ => (path, path)) path = path := by
  rw [treeOrigin, ite_self]

theorem entriesOrigin_const (session : Session) (key path : String) (kind : EntryKind) :
    session.entriesOrigin key (fun _ => (path, path)) path kind = (path, path) := by
  rw [entriesOrigin, linesOrigin_const]
  dsimp only
  rw [treeOrigin_const, ite_self]

theorem fileOf_focus (hFocus : session.editor.current = some path) :
    session.fileOf .focus = path := by
  rw [fileOf, Editor.pathOf, hFocus]
  rfl

/-- A question leaves the origins as they are when all of them are the file it is about. -/
theorem originsAsked_const (hFocus : session.editor.current = some path) {question : Question}
    (hSource : question.source ≠ .file Source.focusKey) :
    session.originsAsked (fun _ => (path, path)) question = fun _ => (path, path) := by
  have hFile : question.source.key = Source.focusKey →
      session.fileOf question.source = path := by
    intro hKey
    cases hIs : question.source with
    | focus => exact fileOf_focus hFocus
    | file name =>
        rw [hIs] at hKey hSource
        exact absurd (congrArg Source.file hKey) hSource
  cases question with
  | lines source =>
      rw [originsAsked]
      split
      · rename_i hAsked
        have hFile : session.fileOf source = path := hFile hAsked.1
        rw [hFile, originsAfterLines, linesOrigin_const, set_const]
      · rfl
  | entries kind source =>
      rw [originsAsked]
      split
      · rename_i hAsked
        have hFile : session.fileOf source = path := hFile hAsked.1
        rw [hFile, originsAfterEntries, originsAfterLines, linesOrigin_const, set_const,
          originsAfterTree, treeOrigin_const, set_const, ite_self, entriesOrigin_const,
          set_const, ite_self]
      · rfl

theorem traced_of_steady (h : Steady path session) :
    Traced session (fun _ => (path, path)) ∧ session.editor.current = some path := by
  induction h with
  | start hEmpty hFocus => exact ⟨.start hEmpty, hFocus⟩
  | @perform session action hSession hSource hFiles hFocus ih =>
      have hSame : session.originsAfter (fun _ => (path, path)) action =
          fun _ => (path, path) := by
        rw [originsAfter]
        cases hQuestion : session.question? action with
        | none => rfl
        | some question => exact originsAsked_const ih.2 (hSource question hQuestion)
      refine ⟨?_, hFocus⟩
      rw [← hSame]
      exact .perform ih.1 hFiles

/-- While the focus stays on one file, a question about the focus is answered from this file. -/
theorem focus_answers_of_steady (h : Steady path session) {present : List String}
    (hRead : session.editor.readLines .focus = .ok present) :
    (∀ kind, (session.entries kind .focus).map Prod.fst =
        .ok (entriesWith (readTree session.reader present) present kind)) ∧
      (∀ text limit, (session.keysStartingWith .focus text limit).map Prod.fst =
        .ok (YamlIndex.keysStartingWith text present limit)) ∧
      ∀ query limit, (session.find .focus query limit).map Prod.fst =
        .ok (findPath (Path.ofDotted query) present limit) := by
  obtain ⟨hTraced, hFocus⟩ := traced_of_steady h
  have hFile := fileOf_focus hFocus
  have hHeld : session.held path = present := by
    rw [← hFile]
    exact (eq_held_of_readLines hRead).symm
  have hLines : (session.lines .focus).map Prod.fst = .ok present := by
    rw [lines_of_traced hTraced hRead, seenLines, hFile, linesOrigin_const, hHeld]
  refine ⟨fun kind => ?_, fun text limit => ?_, fun query limit => ?_⟩
  · rw [entries_of_traced hTraced hRead, seenEntries, hFile, entriesOrigin_const, hHeld]
  · rw [map_fst_keysStartingWith, hLines]
    rfl
  · rw [map_fst_find, hLines]
    rfl

end Steady

end Session

end YamlIndex
