import YamlIndex.Proofs.Session.Edits

/-!
# What an edit leaves behind

An edit looks, asks, writes and forgets, in this order, so whatever ends it before the write ends it
without a trace.  What is forgotten behind the write are the names of the source before it, since a
write leaves the focus.

Names are compared in two ways.  Whether the file has the focus is a question about components, but
a record is kept under a text.  A source that spells the path of the focus in another way takes the
record of the focus along, and the record under the spelling of the focus stays.

## Main results

* `assignmentAt_eq_noSuchLine_iff`: when a source has no line of a number.
* `edit_eq_true_iff`: when a line is written.
* `edit_changes_nothing_or_forgets`: what an edit reports and what is left behind it.
-/

namespace YamlIndex

namespace Editor

/-- A write leaves the focus, so it leaves the names of all sources. -/
theorem namesOf_of_replaceLine {editor changed : Editor} {source : Source} {line : Nat}
    {new : String} (h : editor.replaceLine source line new = .ok changed) :
    changed.namesOf = editor.namesOf := by
  obtain ⟨_, _, _, _, -, -, -, rfl⟩ := exists_of_replaceLine h
  rfl

end Editor

namespace Session

/-! ## Lines that are not there -/

theorem assignmentAt_eq_noSuchLine_iff {session : Session} {source : Source} {line n count : Nat} :
    session.assignmentAt source line = .error (.noSuchLine n count) ↔
      n = line ∧ ∃ lines, session.editor.readLines source = .ok lines ∧ count = lines.length ∧
        (line = 0 ∨ lines.length < line) := by
  unfold assignmentAt
  cases session.editor.readLines source with
  | error error => simp
  | ok lines =>
      simp only [Except.ok.injEq, exists_eq_left', ← lineAt?_eq_none_iff]
      cases lineAt? lines line with
      | none => simp [eq_comm]
      | some text =>
          dsimp only
          cases Line.assignment? text <;> simp

/-- A line is missed before anything is asked. -/
theorem edit_eq_noSuchLine_iff {session : Session} {source : Source} {line n count : Nat}
    {ask : String → Option String} :
    (session.edit source line ask).1.result = .error (.noSuchLine n count) ↔
      session.assignmentAt source line = .error (.noSuchLine n count) := by
  rw [edit]
  cases session.assignmentAt source line with
  | error error => simp
  | ok assignment =>
      dsimp only
      cases replacement? assignment.2 (ask assignment.2) with
      | none => simp
      | some new =>
          dsimp only
          cases session.editor.replaceLine source line (assignment.1 ++ " " ++ new) <;> simp

/-! ## Edits that write -/

/-- A change is reported just if there is a value to exchange and the answer is another one. -/
theorem edit_eq_true_iff {session : Session} {source : Source} {line : Nat}
    {ask : String → Option String} :
    (session.edit source line ask).1.result = .ok true ↔
      ∃ lines old head value answer, session.editor.readLines source = .ok lines ∧ 1 ≤ line ∧
        lines[line - 1]? = some old ∧ Line.assignment? old = some (head, value) ∧
        ask value = some answer ∧ Text.trimmed answer ≠ "" ∧ Text.trimmed answer ≠ value := by
  constructor
  · intro hTrue
    cases hRead : session.editor.readLines source with
    | error error =>
        rw [edit, assignmentAt, hRead] at hTrue
        exact absurd hTrue (by simp)
    | ok lines =>
        obtain ⟨location, text, hOpen, rfl⟩ := Editor.openText_cases hRead
        rcases edit_kept_or_written hOpen line ask with ⟨hKept, -⟩ |
          ⟨front, old, ending, rest, head, value, answer, hLine, hHead, hAsk, hNe, hNew, -⟩
        · exact absurd hTrue hKept
        · exact ⟨_, String.ofList old, head, value, answer, rfl, hLine.bounds.1,
            Text.getElem?_linesOf hLine, hHead, hAsk, hNe, hNew⟩
  · rintro ⟨lines, old, head, value, answer, hRead, hFirst, hOld, hHead, hAsk, hNe, hNew⟩
    obtain ⟨location, text, hOpen, rfl⟩ := Editor.openText_cases hRead
    obtain ⟨front, chars, ending, rest, hLine, rfl⟩ := Text.exists_isLineAt_of_getElem? hFirst hOld
    have hReplace : replacement? value (ask value) = some (Text.trimmed answer) :=
      replacement?_eq_some_iff.mpr ⟨answer, hAsk, rfl, hNe, hNew⟩
    rw [edit_of_replacement hOpen hLine hHead hReplace]

/-- **An edit changes nothing or forgets just its source.**  It reports that there is no such line
just if the source can be read and the number is zero or larger than the number of its lines, and a
change just if the line has a value and the answer is neither blank nor this value.  When it reports
no change, the session is the one it was.  When it reports one, no slot holds a record under a name
of the source, and under all other keys each slot holds what it held, whatever the age of the
records. -/
theorem edit_changes_nothing_or_forgets (session : Session) (source : Source) (line : Nat)
    (ask : String → Option String) :
    let report := (session.edit source line ask).1
    let edited := (session.edit source line ask).2
    (∀ n count, report.result = .error (.noSuchLine n count) ↔
      n = line ∧ ∃ lines, session.editor.readLines source = .ok lines ∧ count = lines.length ∧
        (line = 0 ∨ lines.length < line)) ∧
      (report.result = .ok true ↔
        ∃ lines old head value answer, session.editor.readLines source = .ok lines ∧ 1 ≤ line ∧
          lines[line - 1]? = some old ∧ Line.assignment? old = some (head, value) ∧
          ask value = some answer ∧ Text.trimmed answer ≠ "" ∧ Text.trimmed answer ≠ value) ∧
      (report.result ≠ .ok true → edited = session) ∧
      (report.result = .ok true → ∀ slot key, (edited.cache.store slot).find? key =
        if key ∈ session.editor.namesOf source then none
        else (session.cache.store slot).find? key) := by
  intro report edited
  refine ⟨fun n count => edit_eq_noSuchLine_iff.trans assignmentAt_eq_noSuchLine_iff,
    edit_eq_true_iff, ?_⟩
  rcases edit_spec session source line ask with
    ⟨hKept, hSame⟩ | ⟨new, editor, hReplace, hWritten, hEdited⟩
  · exact ⟨fun _ => hSame, fun hReport => absurd hReport hKept⟩
  · refine ⟨fun hReport => absurd hWritten hReport, fun _ slot key => ?_⟩
    rw [← Editor.namesOf_of_replaceLine hReplace, show edited = _ from hEdited]
    exact find?_forgetEdited { session with editor } source slot key

/-- The path of the focus is spelled with a slash too many.  The second line is edited, and there is
no third one. -/
theorem edit_changes_nothing_or_forgets_spelled :
    let volume : Volume :=
      { tree := .directory [("a.yaml", .file (.text "metadata:\n  name: web\n"))] }
    let record : Stamped (List String) := ⟨["old:"], 0⟩
    let session : Session :=
      { editor := { volume, current := some "/a.yaml" }
        cache := { lifetime := 1000, lines := ⟨[("current", record), ("/a.yaml", record),
          ("//a.yaml", record)]⟩ } }
    let edit := fun line => session.edit (.file "//a.yaml") line fun _ => some "app"
    (edit 3).1.result = .error (.noSuchLine 3 2) ∧ (edit 3).2 = session ∧
      (edit 2).1.result = .ok true ∧
      ((edit 2).2.cache.store .lines).find? "current" = none ∧
      ((edit 2).2.cache.store .lines).find? "//a.yaml" = none ∧
      ((edit 2).2.cache.store .lines).find? "/a.yaml" = some record := by
  intro volume record session edit
  obtain ⟨hMissing, -, hSame, -⟩ :=
    edit_changes_nothing_or_forgets session (.file "//a.yaml") 3 fun _ => some "app"
  obtain ⟨-, hChanges, -, hRecords⟩ :=
    edit_changes_nothing_or_forgets session (.file "//a.yaml") 2 fun _ => some "app"
  have hRead : session.editor.readLines (.file "//a.yaml") = .ok ["metadata:", "  name: web"] := by
    decide
  have hThird : (edit 3).1.result = .error (.noSuchLine 3 2) :=
    (hMissing 3 2).mpr ⟨rfl, _, hRead, rfl, .inr (by decide)⟩
  have hSecond : (edit 2).1.result = .ok true :=
    hChanges.mpr ⟨_, "  name: web", "  name:", "web", "app", hRead, by decide, by decide, by decide,
      rfl, by decide, by decide⟩
  refine ⟨hThird, hSame fun hTrue => ?_, hSecond, ?_, ?_, ?_⟩
  · exact absurd (hThird.symm.trans hTrue) (by simp)
  · exact (hRecords hSecond .lines "current").trans (if_pos (by decide))
  · exact (hRecords hSecond .lines "//a.yaml").trans (if_pos (by decide))
  · exact (hRecords hSecond .lines "/a.yaml").trans (if_neg (by decide))

end Session

end YamlIndex
