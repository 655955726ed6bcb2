import YamlIndex.Proofs.Line.Assignment
import YamlIndex.Proofs.Line.Exchange
import YamlIndex.Proofs.Session.Transparency
import YamlIndex.Proofs.Text.Replacement

/-!
# The index after an edit

An edit is asked for a leaf that the index lists, and the index is made anew behind it.  The line is
cut where the scan has found its value, so the present value is what is offered.  The line that is
put together is a leaf with the same key in the same column, so all paths stay, and of the entries
only the one on this line shows the new value and the new text.

Nothing is remembered of the source when the edit is done, so what is asked then is read anew; the
session has no reader of trees here, for a tree would have to be read from the new text as well.

## Main results

* `edit_kept_or_written`: the ways an edit goes.
* `edit_of_assignment`: an edit of which the answer is a new value on one line.
* `reindexed_after_edit`: what is listed after the edit of a value that was listed.
-/

namespace YamlIndex.Session

/-- Of the source that was edited nothing is remembered. -/
theorem isCurrent_forgetEdited (session : Session) (source : Source) :
    (session.forgetEdited source).IsCurrent source := by
  intro slot record hRecord
  have hNone := (record?_of_forgetEdited hRecord).2
  exact absurd (Editor.key_mem_namesOf session.editor source) hNone

/-- What is written is the trimmed answer, if it is not blank and not the present value. -/
theorem replacement?_eq_some_iff {current new : String} {answer : Option String} :
    replacement? current answer = some new ↔
      ∃ given, answer = some given ∧ Text.trimmed given = new ∧ new ≠ "" ∧ new ≠ current := by
  constructor
  · intro h
    unfold replacement? at h
    split at h
    · exact absurd h (by simp)
    · rename_i given
      dsimp only at h
      split at h
      · exact absurd h (by simp)
      · rename_i hOther
        rw [Bool.or_eq_true, String.isEmpty_iff, beq_iff_eq, not_or] at hOther
        exact ⟨given, rfl, Option.some.inj h, Option.some.inj h ▸ hOther⟩
  · rintro ⟨given, rfl, rfl, hNe, hNew⟩
    simp [replacement?, hNe, hNew]

theorem edited_ne_nil (head new : String) : (head ++ " " ++ new).toList ≠ [] := by
  simp

/-- The line that an edit writes ends in the last character of the answer, which is no blank. -/
theorem getLast?_edited {answer : String} (hNe : Text.trimmed answer ≠ "") (head : String)
    {c : Char} (hBlank : Text.isBlank c = true) :
    (head ++ " " ++ Text.trimmed answer).toList.getLast? ≠ some c := by
  intro hLast
  have hTrim : (Text.trimmed answer).toList = Text.trim answer.toList := by
    rw [Text.trimmed, String.toList_ofList]
  have hNeList : (Text.trimmed answer).toList ≠ [] := by simpa using hNe
  rw [String.toList_append, List.getLast?_append_of_ne_nil _ hNeList, hTrim] at hLast
  rw [Text.isBlank_getLast_trim hLast] at hBlank
  exact absurd hBlank (by simp)

/-- The session after a text was written to the file of a source: nothing is remembered of it. -/
def rewritten (session : Session) (source : Source) (location : Location) (chars : List Char) :
    Session :=
  { session with editor := session.editor.rewritten location chars }.forgetEdited source

section Edit

variable {session : Session} {source : Source} {lines : List String} {line : Nat}

/-! ## The ways an edit goes

An edit looks at its line, asks for a value where the line has one, and writes where the answer is
another one. -/

section Line

variable {location : Location} {text : String} {front old ending rest : List Char}
  {head value : String} {ask : String → Option String}

theorem assignmentAt_eq (hOpen : session.editor.openText source = .ok (location, text))
    (hLine : Text.IsLineAt text.toList line front old ending rest) :
    session.assignmentAt source line =
      (Line.assignment? (String.ofList old)).elim
        (.error (.noValue line (String.ofList old))) .ok := by
  obtain ⟨n, rfl⟩ : ∃ n, line = n + 1 := ⟨line - 1, by have := hLine.bounds; omega⟩
  have hOld := Text.getElem?_linesOf hLine
  rw [Nat.add_sub_cancel] at hOld
  simp only [assignmentAt, Editor.readLines_of_openText hOpen, lineAt?, hOld]
  cases Line.assignment? (String.ofList old) <;> rfl

/-- A line that is not cut is refused without a question. -/
theorem edit_of_keyless (hOpen : session.editor.openText source = .ok (location, text))
    (hLine : Text.IsLineAt text.toList line front old ending rest)
    (hHead : Line.assignment? (String.ofList old) = none) (ask : String → Option String) :
    session.edit source line ask =
      (⟨none, .error (.noValue line (String.ofList old))⟩, session) := by
  rw [edit, assignmentAt_eq hOpen hLine, hHead, Option.elim_none]

/-- Nothing is written for an answer that is no other value. -/
theorem edit_of_kept (hOpen : session.editor.openText source = .ok (location, text))
    (hLine : Text.IsLineAt text.toList line front old ending rest)
    (hHead : Line.assignment? (String.ofList old) = some (head, value))
    (hNew : replacement? value (ask value) = none) :
    session.edit source line ask = (⟨some value, .ok false⟩, session) := by
  rw [edit, assignmentAt_eq hOpen hLine, hHead, Option.elim_some]
  simp only [hNew]

/-- Another value is written behind the head of its line, with all around it as before. -/
theorem edit_of_replacement (hOpen : session.editor.openText source = .ok (location, text))
    (hLine : Text.IsLineAt text.toList line front old ending rest)
    (hHead : Line.assignment? (String.ofList old) = some (head, value)) {new : String}
    (hNew : replacement? value (ask value) = some new) :
    session.edit source line ask =
      (⟨some value, .ok true⟩, session.rewritten source location
        (front ++ ((head ++ " " ++ new).toList ++ ending ++ rest))) := by
  rw [edit, assignmentAt_eq hOpen hLine, hHead, Option.elim_some]
  simp only [hNew, Editor.replaceLine_of_isLineAt hOpen hLine]
  rfl

/-- The head of a line is a part of it. -/
theorem break_notMem_head {s : List Char} (hLine : Text.IsLineAt s line front old ending rest)
    (hHead : Line.assignment? (String.ofList old) = some (head, value)) : '\n' ∉ head.toList := by
  have hFront := Line.prefix_of_assignment? hHead
  rw [String.toList_ofList] at hFront
  exact fun hIn => hLine.oneLine (hFront.subset hIn)

/-- A new value on one line and the head in front of it are one line. -/
theorem break_notMem_edited {s : List Char}
    (hLine : Text.IsLineAt s line front old ending rest)
    (hHead : Line.assignment? (String.ofList old) = some (head, value)) {answer : String}
    (hBreak : '\n' ∉ (Text.trimmed answer).toList) :
    '\n' ∉ (head ++ " " ++ Text.trimmed answer).toList := by
  rw [String.toList_append, String.toList_append]
  simp [break_notMem_head hLine hHead, hBreak]

/-- Where a source has no such line, nothing is asked. -/
theorem edit_of_no_line (hOpen : session.editor.openText source = .ok (location, text))
    (h : ¬ (1 ≤ line ∧ line ≤ (Text.linesOf text).length)) (ask : String → Option String) :
    session.edit source line ask =
      (⟨none, .error (.noSuchLine line (Text.linesOf text).length)⟩, session) := by
  have hNone : lineAt? (Text.linesOf text) line = none := lineAt?_eq_none_iff.mpr (by omega)
  rw [edit, assignmentAt, Editor.readLines_of_openText hOpen]
  simp only [hNone]

/-- The edit of a source that can be read reports no change and makes none, or an answer is written
on the line. -/
theorem edit_kept_or_written (hOpen : session.editor.openText source = .ok (location, text))
    (line : Nat) (ask : String → Option String) :
    ((session.edit source line ask).1.result ≠ .ok true ∧
        (session.edit source line ask).2 = session) ∨
      ∃ front old ending rest head value answer,
        Text.IsLineAt text.toList line front old ending rest ∧
        Line.assignment? (String.ofList old) = some (head, value) ∧ ask value = some answer ∧
        Text.trimmed answer ≠ "" ∧ Text.trimmed answer ≠ value ∧
        session.edit source line ask =
          (⟨some value, .ok true⟩, session.rewritten source location
            (front ++ ((head ++ " " ++ Text.trimmed answer).toList ++ ending ++ rest))) := by
  by_cases hIn : 1 ≤ line ∧ line ≤ (Text.linesOf text).length
  · have hLast : line ≤ (Text.lines text.toList).length := by
      have hCount : (Text.linesOf text).length = (Text.lines text.toList).length :=
        List.length_map ..
      omega
    obtain ⟨front, old, ending, rest, hLine⟩ := Text.exists_isLineAt hIn.1 hLast
    cases hHead : Line.assignment? (String.ofList old) with
    | none =>
        rw [edit_of_keyless hOpen hLine hHead]
        exact .inl ⟨by simp, rfl⟩
    | some assignment =>
        obtain ⟨head, value⟩ := assignment
        cases hNew : replacement? value (ask value) with
        | none =>
            rw [edit_of_kept hOpen hLine hHead hNew]
            exact .inl ⟨by simp, rfl⟩
        | some new =>
            obtain ⟨answer, hAsk, rfl, hNe, hOther⟩ := replacement?_eq_some_iff.mp hNew
            exact .inr ⟨front, old, ending, rest, head, value, answer, hLine, hHead, hAsk, hNe,
              hOther, edit_of_replacement hOpen hLine hHead hNew⟩
  · rw [edit_of_no_line hOpen hIn]
    exact .inl ⟨by simp, rfl⟩

end Line

/-- The edit of a line with a key offers its value, and exchanges the line when the answer is a new
value on one line. -/
theorem edit_of_assignment (hRead : session.editor.readLines source = .ok lines) (hFirst : 1 ≤ line)
    {old head value : String} (hOld : lines[line - 1]? = some old)
    (hHead : Line.assignment? old = some (head, value)) {ask : String → Option String}
    {answer : String} (hAsk : ask value = some answer) (hNe : Text.trimmed answer ≠ "")
    (hNew : Text.trimmed answer ≠ value) (hBreak : '\n' ∉ (Text.trimmed answer).toList) :
    ∃ editor, (session.edit source line ask) =
        (⟨some value, .ok true⟩, { session with editor }.forgetEdited source) ∧
      editor.readLines source =
        .ok (lines.set (line - 1) (head ++ " " ++ Text.trimmed answer)) := by
  obtain ⟨location, text, hOpen, rfl⟩ := Editor.openText_cases hRead
  obtain ⟨front, chars, ending, rest, hLine, rfl⟩ := Text.exists_isLineAt_of_getElem? hFirst hOld
  have hReplace : replacement? value (ask value) = some (Text.trimmed answer) :=
    replacement?_eq_some_iff.mpr ⟨answer, hAsk, rfl, hNe, hNew⟩
  refine ⟨_, edit_of_replacement hOpen hLine hHead hReplace,
    Editor.readLines_rewritten hOpen hLine (edited_ne_nil head _)
      (break_notMem_edited hLine hHead hBreak) (getLast?_edited hNe head (by decide))⟩

/-- Behind the edit of a source without a reader, what is asked of it is answered from its present
lines by the scan. -/
theorem answers_after_edit {editor : Editor} {present : List String}
    (hReader : session.reader = none) (hRead : editor.readLines source = .ok present) :
    let edited := { session with editor }.forgetEdited source
    (edited.values source).map Prod.fst = .ok (scanValues present) ∧
      (edited.paths source).map Prod.fst = .ok (scanPaths present) ∧
      (∀ text limit, (edited.keysStartingWith source text limit).map Prod.fst =
        .ok (YamlIndex.keysStartingWith text present limit)) ∧
      ∀ query limit, (edited.find source query limit).map Prod.fst =
        .ok (findPath (Path.ofDotted query) present limit) := by
  intro edited
  have hCurrent : edited.IsCurrent source := isCurrent_forgetEdited { session with editor } source
  obtain ⟨hEditor, -, hSame⟩ := forgetEdited_same { session with editor } source
  have hNow : edited.editor.readLines source = .ok present := by
    rw [show edited.editor = editor from hEditor]
    exact hRead
  have hNone : edited.reader = none := hSame.trans hReader
  have hEntries : ∀ kind, (edited.entries kind source).map Prod.fst =
      .ok (entriesWith none present kind) := by
    intro kind
    rw [(hCurrent.entries kind).1, hNow, hNone]
    rfl
  have hLines := hCurrent.lines.1
  rw [hNow] at hLines
  refine ⟨hEntries .value, hEntries .path, fun text limit => ?_, fun query limit => ?_⟩
  · rw [map_fst_keysStartingWith, hLines]
    rfl
  · rw [map_fst_find, hLines]
    rfl

/-- In a session without a reader, the value of an entry that the present lines of a source give is
edited: the present value is offered, and an answer that is not blank, is new, has no line feed and
is no comment is written behind the colon of the entry's line.  What is asked afterwards is what the
old lines gave, with the new value in this entry and the text of the new line in every entry on it.
-/
theorem reindexed_after_edit (hReader : session.reader = none)
    (hRead : session.editor.readLines source = .ok lines) {entry : ValueEntry}
    (hEntry : entry ∈ scanValues lines) {ask : String → Option String} {answer : String}
    (hAsk : ask entry.value = some answer) (hNe : Text.trimmed answer ≠ "")
    (hNew : Text.trimmed answer ≠ entry.value) (hBreak : '\n' ∉ (Text.trimmed answer).toList)
    (hComment : (Text.trimmed answer).toList.head? ≠ some '#') :
    let report := (session.edit source entry.line ask).1
    let edited := (session.edit source entry.line ask).2
    report.offered = some entry.value ∧ report.result = .ok true ∧
      ∃ head, lines[entry.line - 1]?.bind Line.assignment? = some (head, entry.value) ∧
        let new := head ++ " " ++ Text.trimmed answer
        let exchanged := PathEntry.exchange entry.line (Text.trimmed new)
        edited.editor.readLines source = .ok (lines.set (entry.line - 1) new) ∧
        (edited.values source).map Prod.fst =
          .ok ((scanValues lines).map fun other =>
            if other = entry then
              { entry with value := Text.trimmed answer, text := Text.trimmed new }
            else other) ∧
        (edited.paths source).map Prod.fst = .ok ((scanPaths lines).map exchanged) ∧
        (∀ text limit, (edited.keysStartingWith source text limit).map Prod.fst =
          .ok ((YamlIndex.keysStartingWith text lines limit).map exchanged)) ∧
        ∀ query limit, (edited.find source query limit).map Prod.fst =
          .ok ((findPath (Path.ofDotted query) lines limit).map exchanged) := by
  intro report edited
  obtain ⟨old, mapping, hFirst, hOld, hLine, hValue⟩ := mem_scanValues hEntry
  obtain ⟨head, hHead⟩ := Line.assignment?_of_mapping hLine hValue
  obtain ⟨editor, hEdit, hAfter⟩ :=
    edit_of_assignment hRead hFirst hOld hHead hAsk hNe hNew hBreak
  have hReport : report = ⟨some entry.value, .ok true⟩ := congrArg Prod.fst hEdit
  have hEdited : edited = { session with editor }.forgetEdited source := congrArg Prod.snd hEdit
  have hClassify := Line.classify_assign hLine hHead hNe hComment
  have hShape : (Line.classify (head ++ " " ++ Text.trimmed answer)).shape =
      (Line.classify old).shape := by
    rw [hClassify, hLine]
    rfl
  have hNumber : 1 + (entry.line - 1) = entry.line := by omega
  have hEditor : edited.editor = editor := by
    rw [hEdited]
    exact (forgetEdited_same { session with editor } source).1
  obtain ⟨hValues, hPaths, hKeys, hFind⟩ := answers_after_edit hReader hAfter
  rw [← hEdited] at hValues hPaths hKeys hFind
  refine ⟨by rw [hReport], by rw [hReport], head, ?_, ?_, ?_, ?_, ?_, ?_⟩
  · rw [hOld]
    exact hHead
  · rw [hEditor]
    exact hAfter
  · rw [hValues, scanValues_set hOld hLine hValue hClassify, hNumber]
    congr 1
    apply List.map_congr_left
    intro other hOther
    rw [ValueEntry.exchange]
    by_cases hSame : other = entry
    · rw [if_pos hSame, if_pos (congrArg ValueEntry.line hSame), hSame]
    · have hElse : other.line ≠ entry.line := fun hEq => hSame (eq_of_line_eq hOther hEntry hEq)
      rw [if_neg hSame, if_neg hElse]
  · rw [hPaths, scanPaths_set hOld hShape, hNumber]
  · intro text limit
    rw [hKeys, keysStartingWith_set hOld hShape, hNumber]
  · intro query limit
    rw [hFind, findPath_set hOld hShape, hNumber]

end Edit

/-- The focus is edited after its paths were asked for, in a file of which one line ends in a
carriage return and a line feed, and the answer holds a colon. -/
theorem reindexed_after_edit_of_focus :
    let text := "metadata:\r\n  name: nginx\r\nspec:\n  name: web"
    let volume : Volume := { tree := .directory [("a.yaml", .file (.text text))] }
    let start : Session :=
      { editor := { volume, current := some "/a.yaml" }, cache := { lifetime := 1000 } }
    let session := start.perform (.entries .path .focus)
    let edited := (session.edit .focus 2 fun _ => some " httpd:2.4 ").2
    edited.editor.readLines .focus =
        .ok ["metadata:", "  name: httpd:2.4", "spec:", "  name: web"] ∧
      ((edited.values .focus).map Prod.fst).toOption.map (·.map ValueEntry.value) =
        some ["httpd:2.4", "web"] := by
  intro text volume start session edited
  let ask : String → Option String := fun _ => some " httpd:2.4 "
  let entry : ValueEntry :=
    { line := 2, key := "name", path := [.key "metadata", .key "name"], value := "nginx"
      text := "name: nginx" }
  have hRead : session.editor.readLines .focus =
      .ok ["metadata:", "  name: nginx", "spec:", "  name: web"] := by decide
  have hEntry : entry ∈ scanValues ["metadata:", "  name: nginx", "spec:", "  name: web"] := by
    decide
  have hAsk : ask entry.value = some " httpd:2.4 " := rfl
  obtain ⟨-, -, head, hHead, hAfter, hValues, -⟩ :=
    reindexed_after_edit rfl hRead hEntry hAsk (by decide) (by decide) (by decide) (by decide)
  have hSome : head = "  name:" := by
    have hCut : (["metadata:", "  name: nginx", "spec:", "  name: web"] : List String)[2 - 1]?.bind
        Line.assignment? = some ("  name:", "nginx") := by decide
    exact (Prod.mk.inj (Option.some.inj (hHead.symm.trans hCut))).1
  subst hSome
  constructor
  · exact hAfter.trans (by decide)
  · rw [hValues]
    decide

end YamlIndex.Session
