import YamlIndex.Proofs.Session.Volumes

/-!
# A jump or nothing

Moving the cursor takes several steps, and the ledger is written behind them.  What can fail is what
comes first: the choice, the search for an earlier target and the opening of its file.  So an
attempt that does not end in a jump has moved nothing, and one that does has moved everything.

Between attempts the cursor is where the focus is, and no file is loaded twice.

## Main results

* `Editor.IsSettled.moveTo`: a move leaves the cursor in the focus.
* `lands_or_stays`: attempts end in a jump in full or in nothing, in every state that there is.
-/

namespace YamlIndex

namespace Editor

/-! ## Editors between moves -/

/-- The cursor is in the file that has the focus, and the loaded files are different ones. -/
structure IsSettled (editor : Editor) : Prop where
  cursor : ∀ path line, editor.cursor = some (path, line) → editor.current = some path
  loaded : editor.loaded.Pairwise fun path other => FilePath.same path other = false

theorem IsSettled.holding {editor : Editor} (h : editor.IsSettled) (path : String) :
    (editor.holding path).IsSettled := by
  rw [Editor.holding]
  cases hOpen : editor.hasOpen path with
  | true => exact h
  | false =>
      refine ⟨h.cursor, List.pairwise_append.mpr ⟨h.loaded, List.pairwise_singleton _ _, ?_⟩⟩
      intro other hOther new hNew
      rw [List.mem_singleton.mp hNew]
      rw [hasOpen, Bool.or_eq_false_iff] at hOpen
      have hDiffer := List.any_eq_false.mp hOpen.2 other hOther
      rw [Bool.not_eq_true, FilePath.same, beq_eq_false_iff_ne] at hDiffer
      rw [FilePath.same, beq_eq_false_iff_ne]
      exact hDiffer.symm

theorem IsSettled.load {editor loaded : Editor} (h : editor.IsSettled) {source : Source}
    (hLoad : editor.load source = .ok loaded) : loaded.IsSettled := by
  obtain ⟨path, -, rfl⟩ := load_eq hLoad
  exact h.holding path

theorem IsSettled.moveTo {editor moved : Editor} (h : editor.IsSettled) {source : Source}
    {line : Nat} (hMove : editor.moveTo source line = .ok moved) : moved.IsSettled := by
  obtain ⟨path, -, rfl⟩ := moveTo_eq hMove
  refine ⟨fun other number hCursor => ?_, (h.holding path).loaded⟩
  cases hCursor
  rfl

theorem IsSettled.replaceLine {editor changed : Editor} (h : editor.IsSettled) {source : Source}
    {line : Nat} {new : String} (hReplace : editor.replaceLine source line new = .ok changed) :
    changed.IsSettled := by
  obtain ⟨_, _, _, _, -, -, -, rfl⟩ := exists_of_replaceLine hReplace
  exact ⟨h.cursor, h.loaded⟩

end Editor

namespace Session

/-! ## What is chosen -/

/-- Whether a picker that is offered the entries takes the one of the jump and the target. -/
def Takes (kind : EntryKind) (source : Source) (entries : List kind.Entry) (picker : Picker)
    (jump : Jump) (target : Target) : Prop :=
  ∃ selection entry,
    picker ⟨kind.prompt, Choice.ofEntries kind entries, kind.actions⟩ = some selection ∧
      entries[selection.choice.index]? = some entry ∧
        jump = ⟨sourceOf source (kind.file entry), kind.line entry, selection.action⟩ ∧
          target = ⟨kind, kind.target entry⟩

/-- Whether a line is the first one where a target is found in a source: the first one at or below a
path, or the first one with a value. -/
def FindsAt (session : Session) (source : Source) (target : Target) (line : Nat) : Prop :=
  match target.kind with
  | .path => ∃ lines asked, session.lines source = .ok (lines, asked) ∧
      (findPath (Path.ofDotted target.text) lines none).head?.map PathEntry.line = some line
  | .value => ∃ values asked, session.values source = .ok (values, asked) ∧
      (values.find? fun entry => entry.value == target.text).map ValueEntry.line = some line

/-- Whether a picker that is offered the earlier targets takes the one that the jump is for. -/
def Recalls (session : Session) (source : Source) (picker : Picker) (jump : Jump)
    (target : Target) : Prop :=
  ∃ selection line,
    picker ⟨"YAML history", Choice.ofTargets session.ledger.records.reverse, [.jump]⟩ =
        some selection ∧
      session.ledger.records.reverse[selection.choice.index]? = some target ∧
        session.FindsAt source target line ∧ jump = ⟨source, line, selection.action⟩

/-- Whether an attempt ends in a jump to what was chosen or in nothing: the focus and the cursor are
on the line of the jump, in the file that its source stood for, and its target was added to the
ledger once; or there is no jump, and the editor and the ledger are as before. -/
def LandsOrStays (before : Session) (chosen : Jump → Target → Prop) (attempt : Attempt)
    (after : Session) : Prop :=
  (∃ jump target path, attempt.result = .ok (some jump) ∧ chosen jump target ∧
      before.editor.pathOf jump.source = .ok path ∧
        after.editor = before.editor.onLine path jump.line ∧
          after.ledger = before.ledger.add target) ∨
    (∀ jump, attempt.result ≠ .ok (some jump)) ∧ after.editor = before.editor ∧
      after.ledger = before.ledger

section Attempts

variable {session before : Session} {chosen : Jump → Target → Prop}

/-- A session with the same editor and ledger that jumps to what was chosen lands. -/
theorem landsOrStays_of_moveTo (hEditor : session.editor = before.editor)
    (hLedger : session.ledger = before.ledger) (offer : Option Offer) {jump : Jump}
    {target : Target} (hChosen : chosen jump target) {editor : Editor}
    (hMove : session.editor.moveTo jump.source jump.line = .ok editor) :
    LandsOrStays before chosen ⟨offer, .ok (some jump)⟩
      { session with editor, ledger := session.ledger.add target } := by
  obtain ⟨path, hPath, rfl⟩ := Editor.moveTo_eq hMove
  rw [hEditor] at hPath
  refine .inl ⟨jump, target, path, rfl, hChosen, hPath, ?_, ?_⟩
  · exact congrArg (Editor.onLine · path jump.line) hEditor
  · exact congrArg (Ledger.add · target) hLedger

theorem landsOrStays_pick (hEditor : session.editor = before.editor)
    (hLedger : session.ledger = before.ledger) (kind : EntryKind) (source : Source)
    (entries : List kind.Entry) (picker : Picker) (hTakes : ∀ jump target,
      Takes kind source entries picker jump target → chosen jump target) :
    LandsOrStays before chosen (session.pick kind source entries picker).1
      (session.pick kind source entries picker).2 := by
  rcases pick_spec session kind source entries picker with
    ⟨attempt, hPick, hNone⟩ | ⟨selection, entry, editor, hPicker, hEntry, hMove, hPick⟩
  · rw [hPick]
    exact .inr ⟨hNone, hEditor, hLedger⟩
  · rw [hPick]
    refine landsOrStays_of_moveTo hEditor hLedger _ (hTakes _ _ ?_) hMove
    exact ⟨selection, entry, hPicker, hEntry, rfl, rfl⟩

theorem landsOrStays_jumpTo (session : Session) (kind : EntryKind) (source : Source)
    (picker : Picker) :
    LandsOrStays session
      (fun jump target => ∃ entries asked, session.entries kind source = .ok (entries, asked) ∧
        Takes kind source entries picker jump target)
      (session.jumpTo kind source picker).1 (session.jumpTo kind source picker).2 := by
  rw [jumpTo]
  cases hEntries : session.entries kind source with
  | error error => exact .inr ⟨by simp, rfl, rfl⟩
  | ok result =>
      obtain ⟨entries, asked⟩ := result
      have hExtends := extends_entries hEntries
      refine landsOrStays_pick hExtends.editor hExtends.ledger kind source entries picker ?_
      exact fun jump target hTakes => ⟨entries, asked, rfl, hTakes⟩

/-- The first of the lines that are found needs no search for further ones. -/
theorem head?_findPath_one (query : Path) (lines : List String) :
    (findPath query lines (some 1)).head? = (findPath query lines none).head? := by
  rw [findPath, findPath]
  by_cases hEmpty : query.isEmpty = true
  · rw [if_pos hEmpty, if_pos hEmpty]
  · rw [if_neg hEmpty, if_neg hEmpty, List.head?_map, List.head?_map]
    rw [limited, limited, List.head?_take, if_neg (by decide)]

/-- Looking for a target gives the first line where it is, and leaves the editor and the ledger. -/
theorem lineOf_spec {source : Source} {target : Target} {found : Option Nat} {asked : Session}
    (h : session.lineOf source target = .ok (found, asked)) :
    asked.editor = session.editor ∧ asked.ledger = session.ledger ∧
      ∀ line, found = some line → session.FindsAt source target line := by
  rw [lineOf] at h
  obtain ⟨kind, text⟩ := target
  cases kind with
  | path =>
      cases hLines : session.lines source with
      | error error =>
          rw [find, hLines] at h
          exact absurd h (by simp [Except.map])
      | ok result =>
          obtain ⟨lines, opened⟩ := result
          rw [find, hLines] at h
          cases h
          have hExtends := extends_lines hLines
          refine ⟨hExtends.editor, hExtends.ledger, fun line hFound => ?_⟩
          rw [head?_findPath_one] at hFound
          exact ⟨lines, asked, hLines, hFound⟩
  | value =>
      cases hValues : session.values source with
      | error error =>
          rw [hValues] at h
          exact absurd h (by simp [Except.map])
      | ok result =>
          obtain ⟨values, opened⟩ := result
          rw [hValues] at h
          cases h
          have hExtends := extends_entries hValues
          refine ⟨hExtends.editor, hExtends.ledger, fun line hFound => ?_⟩
          exact ⟨values, asked, hValues, hFound⟩

theorem landsOrStays_jumpBack (session : Session) (source : Source) (picker : Picker) :
    LandsOrStays session (session.Recalls source picker) (session.jumpBack source picker).1
      (session.jumpBack source picker).2 := by
  cases hRecalled : session.recalled? picker with
  | none =>
      obtain ⟨offer, hBack⟩ := jumpBack_of_none hRecalled source
      rw [hBack]
      exact .inr ⟨by simp, rfl, rfl⟩
  | some target =>
      obtain ⟨selection, hPicker, hTarget, hBack⟩ := jumpBack_of_some hRecalled source
      rw [hBack]
      cases hLine : session.lineOf source target with
      | error error => exact .inr ⟨by simp, rfl, rfl⟩
      | ok result =>
          obtain ⟨found, asked⟩ := result
          obtain ⟨hEditor, hLedger, hFinds⟩ := lineOf_spec hLine
          cases found with
          | none => exact .inr ⟨by simp, hEditor, hLedger⟩
          | some line =>
              dsimp only
              rcases landed_land asked ⟨"YAML history",
                Choice.ofTargets session.ledger.records.reverse, [.jump]⟩ source line
                selection.action target with ⟨error, -, hLanded⟩ | ⟨editor, hMove, hLanded⟩
              · rw [hLanded]
                exact .inr ⟨by simp, hEditor, hLedger⟩
              · rw [hLanded]
                refine landsOrStays_of_moveTo hEditor hLedger _ ?_ hMove
                exact ⟨selection, line, hPicker, hTarget, hFinds line rfl, rfl⟩

end Attempts

/-! ## Sessions between attempts -/

/-- The sessions over an editor that has not been used, behind any number of actions on them, of
moves and loads by the editor itself, and of changes of the volume from outside. -/
inductive InUse : Session → Prop where
  | start {session : Session} (hCursor : session.editor.cursor = none)
      (hLoaded : session.editor.loaded = []) : InUse session
  | perform {session : Session} (hSession : InUse session) (action : Action) :
      InUse (session.perform action)
  | load {session : Session} {source : Source} {editor : Editor} (hSession : InUse session)
      (hLoad : session.editor.load source = .ok editor) : InUse { session with editor }
  | move {session : Session} {source : Source} {line : Nat} {editor : Editor}
      (hSession : InUse session) (hMove : session.editor.moveTo source line = .ok editor) :
      InUse { session with editor }
  | change {session : Session} (hSession : InUse session) (volume : Volume) :
      InUse { session with editor := { session.editor with volume } }

/-- In every session that is in use the cursor is in the focus and no file is loaded twice. -/
theorem InUse.isSettled {session : Session} (h : session.InUse) : session.editor.IsSettled := by
  induction h with
  | start hCursor hLoaded =>
      constructor
      · intro path line hIs
        rw [hCursor] at hIs
        exact absurd hIs (by simp)
      · rw [hLoaded]
        exact .nil
  | @perform session hSession action ih =>
      rcases editor_of_perform session action with
        hSame | ⟨source, line, hMove⟩ | ⟨source, line, new, hReplace⟩
      · rwa [hSame]
      · exact ih.moveTo hMove
      · exact ih.replaceLine hReplace
  | load hSession hLoad ih => exact ih.load hLoad
  | move hSession hMove ih => exact ih.moveTo hMove
  | change hSession volume ih => exact ⟨ih.cursor, ih.loaded⟩

/-- A pick among given entries, a jump to an entry of a source and a jump to an earlier target end
in a jump in full or in nothing, whatever the picker takes.  In a session that is in use the cursor
is in the focus and no file is loaded twice. -/
theorem lands_or_stays (session : Session) :
    (∀ kind source entries picker,
        LandsOrStays session (Takes kind source entries picker)
          (session.pick kind source entries picker).1
          (session.pick kind source entries picker).2) ∧
      (∀ kind source picker,
        LandsOrStays session
          (fun jump target => ∃ entries asked, session.entries kind source = .ok (entries, asked) ∧
            Takes kind source entries picker jump target)
          (session.jumpTo kind source picker).1 (session.jumpTo kind source picker).2) ∧
      (∀ source picker,
        LandsOrStays session (session.Recalls source picker)
          (session.jumpBack source picker).1 (session.jumpBack source picker).2) ∧
      (session.InUse →
        (∀ path line, session.editor.cursor = some (path, line) →
          session.editor.current = some path) ∧
          session.editor.loaded.Pairwise fun path other => FilePath.same path other = false) := by
  refine ⟨fun kind source entries picker => ?_, landsOrStays_jumpTo session,
    landsOrStays_jumpBack session, fun hInUse => ⟨hInUse.isSettled.cursor, hInUse.isSettled.loaded⟩⟩
  exact landsOrStays_pick rfl rfl kind source entries picker fun _ _ hTakes => hTakes

/-- A jump to another file moves the focus and the cursor there and loads the file.  When its target
is gone, the jump back to it fails, and all stays where it was. -/
theorem lands_or_stays_gone :
    let volume : Volume :=
      { tree := .directory
          [("a.yaml", .file (.text "a: 1\n")), ("b.yaml", .file (.text "b: 2\n"))] }
    let start : Session :=
      { editor := { volume, current := some "/a.yaml" }, cache := { lifetime := 1000 } }
    let first : Picker := fun _ => some ⟨⟨0, "", ""⟩, .jump⟩
    let jumped := start.perform (.jumpTo .path (.file "/b.yaml") first)
    let emptied : Session :=
      { jumped with editor := { jumped.editor with volume := { tree := .directory [
        ("a.yaml", .file (.text "a: 1\n")), ("b.yaml", .file (.text "c: 3\n"))] } } }
    let session := emptied.perform (.forget none)
    session.editor.cursor = some ("/b.yaml", 1) ∧ session.editor.current = some "/b.yaml" ∧
      session.editor.loaded = ["/b.yaml"] ∧ session.ledger.records = [⟨.path, "b"⟩] ∧
      (session.jumpBack .focus first).1.result = .error (.gone ⟨.path, "b"⟩) ∧
      (session.jumpBack .focus first).2.editor = session.editor ∧
      (session.jumpBack .focus first).2.ledger = session.ledger := by
  intro volume start first jumped emptied session
  have hInUse : session.InUse := .perform (.change (.perform (.start rfl rfl) _) _) _
  obtain ⟨-, -, hBack, hSettled⟩ := lands_or_stays session
  have hCursor : session.editor.cursor = some ("/b.yaml", 1) := by decide
  have hGone : (session.jumpBack .focus first).1.result = .error (.gone ⟨.path, "b"⟩) := by decide
  refine ⟨hCursor, (hSettled hInUse).1 "/b.yaml" 1 hCursor, by decide, by decide, hGone, ?_⟩
  rcases hBack .focus first with ⟨jump, _, _, hJump, -⟩ | ⟨-, hEditor, hLedger⟩
  · rw [hGone] at hJump
    exact absurd hJump (by simp)
  · exact ⟨hEditor, hLedger⟩

end Session

end YamlIndex
