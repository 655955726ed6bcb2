import YamlIndex.Proofs.Session.Edits

/-!
# Laws of an edit

An edit puts a value on a line, and the laws say what is found there afterwards.  What was put is
what is offered next; to put it once more changes nothing; and of two edits of one line only the
second one is seen, in the file and in all that is remembered.  They hold of every line that can be
cut, whether it is a mapping line, an item with a key, or a key without a value.

Two more laws have a limit.  An answer is written as it is but for the blanks around it, so one with
a line feed in it becomes several lines, and the lines behind it move down.  And a line is looked at
for a key without asking whether it is a comment, so a comment with a colon is edited like a mapping
line; every other line without a key is refused.

## Main results

* `edits_of_one_line`: what was put is found, and the last value that was put is the one that stays.
* `edit_keeps_other_lines_iff`: an edit touches no other line just if its answer has no line feed.
* `keyless_line_refused_iff`: a line without a key is refused just if it is no comment with a colon.
-/

namespace YamlIndex

/-! ## Forgetting twice -/

namespace Store

variable {α : Type}

theorem erase_erase_self (store : Store α) (key : String) :
    (store.erase key).erase key = store.erase key := by
  simp [erase]

theorem erase_comm (store : Store α) (a b : String) :
    (store.erase a).erase b = (store.erase b).erase a := by
  simp [erase, Bool.and_comm]

end Store

namespace Cache

theorem erase_erase_self (cache : Cache) (key : String) :
    (cache.erase key).erase key = cache.erase key := by
  simp only [erase, Store.erase_erase_self]

theorem erase_comm (cache : Cache) (a b : String) :
    (cache.erase a).erase b = (cache.erase b).erase a := by
  simp only [erase, Store.erase_comm _ a b]

end Cache

namespace Session

section Written

variable (session : Session) (source : Source) (location : Location)

theorem editor_rewritten (chars : List Char) :
    (session.rewritten source location chars).editor =
      session.editor.rewritten location chars :=
  (forgetEdited_same _ source).1

/-- Of two texts that are written to the file of a source the second one is all that is seen. -/
theorem rewritten_rewritten (first second : List Char) :
    (session.rewritten source location first).rewritten source location second =
      session.rewritten source location second := by
  have hEditor := Editor.rewritten_rewritten session.editor location first second
  rw [rewritten, editor_rewritten, hEditor]
  cases source with
  | focus =>
      cases hCurrent : session.editor.current with
      | none =>
          simp [rewritten, forgetEdited, Editor.rewritten, hCurrent, Cache.erase_erase_self]
      | some path =>
          simp [rewritten, forgetEdited, Editor.rewritten, hCurrent, Cache.erase_erase_self,
            Cache.erase_comm _ path Source.focus.key]
  | file path =>
      -- what else is forgotten depends on the focus, and to write a file does not move it
      have hSame : ∀ chars, (session.editor.rewritten location chars).isFocus path =
          session.editor.isFocus path := fun _ => rfl
      cases hFocus : session.editor.isFocus path with
      | false => simp [rewritten, forgetEdited, hSame, hFocus, Cache.erase_erase_self]
      | true =>
          simp [rewritten, forgetEdited, hSame, hFocus, Cache.erase_erase_self,
            Cache.erase_comm _ Source.focusKey (Source.file path).key]

end Written

/-! ## Editing a line again -/

section Again

variable {session : Session} {source : Source} {location : Location} {text : String} {line : Nat}
  {front old ending rest : List Char} {head value answer : String} {ask : String → Option String}

/-- An answer that stands on its line already is not written again. -/
theorem replacement?_of_same (h : Text.trimmed answer = value) :
    replacement? value (some answer) = none := by
  simp [replacement?, h]

/-- Behind an edit the source is open at the same place, the new line is where the old one was, and
it is cut into the old head and the new value. -/
theorem found_after_edit (hOpen : session.editor.openText source = .ok (location, text))
    (hLine : Text.IsLineAt text.toList line front old ending rest)
    (hHead : Line.assignment? (String.ofList old) = some (head, value))
    (hNe : Text.trimmed answer ≠ "") (hBreak : '\n' ∉ (Text.trimmed answer).toList) :
    let new := (head ++ " " ++ Text.trimmed answer).toList
    let chars := front ++ (new ++ ending ++ rest)
    (session.rewritten source location chars).editor.openText source =
        .ok (location, String.ofList chars) ∧
      Text.IsLineAt (String.ofList chars).toList line front new ending rest ∧
      Line.assignment? (String.ofList new) = some (head, Text.trimmed answer) := by
  intro new chars
  refine ⟨?_, ?_, ?_⟩
  · rw [editor_rewritten]
    exact Editor.openText_rewritten hOpen chars
  · rw [String.toList_ofList]
    exact hLine.splice (edited_ne_nil head _) (break_notMem_edited hLine hHead hBreak)
      (getLast?_edited hNe head (by decide))
  · rw [String.ofList_toList]
    exact Line.assignment?_assign hHead answer

/-- Behind an edit the answer that was given changes nothing. -/
theorem edit_same_again (hOpen : session.editor.openText source = .ok (location, text))
    (hLine : Text.IsLineAt text.toList line front old ending rest)
    (hHead : Line.assignment? (String.ofList old) = some (head, value))
    (hNe : Text.trimmed answer ≠ "") (hBreak : '\n' ∉ (Text.trimmed answer).toList)
    {other : String} (hSame : Text.trimmed other = Text.trimmed answer)
    (hAsk : ask (Text.trimmed answer) = some other) :
    let edited := session.rewritten source location
      (front ++ ((head ++ " " ++ Text.trimmed answer).toList ++ ending ++ rest))
    edited.edit source line ask = (⟨some (Text.trimmed answer), .ok false⟩, edited) := by
  intro edited
  obtain ⟨hAgain, hFound, hCut⟩ := found_after_edit hOpen hLine hHead hNe hBreak
  exact edit_of_kept hAgain hFound hCut (by rw [hAsk, replacement?_of_same hSame])

/-- Behind an edit another answer is written as if it had been given first. -/
theorem edit_other_again (hOpen : session.editor.openText source = .ok (location, text))
    (hLine : Text.IsLineAt text.toList line front old ending rest)
    (hHead : Line.assignment? (String.ofList old) = some (head, value))
    (hNe : Text.trimmed answer ≠ "") (hBreak : '\n' ∉ (Text.trimmed answer).toList)
    {other : String} (hOther : Text.trimmed other ≠ "")
    (hNew : Text.trimmed other ≠ Text.trimmed answer)
    (hAsk : ask (Text.trimmed answer) = some other) :
    ((session.rewritten source location
      (front ++ ((head ++ " " ++ Text.trimmed answer).toList ++ ending ++ rest))).edit
        source line ask).2 =
      session.rewritten source location
        (front ++ ((head ++ " " ++ Text.trimmed other).toList ++ ending ++ rest)) := by
  obtain ⟨hAgain, hFound, hCut⟩ := found_after_edit hOpen hLine hHead hNe hBreak
  have hReplace : replacement? (Text.trimmed answer) (ask (Text.trimmed answer)) =
      some (Text.trimmed other) := replacement?_eq_some_iff.mpr ⟨other, hAsk, rfl, hOther, hNew⟩
  rw [edit_of_replacement hAgain hFound hCut hReplace]
  exact rewritten_rewritten session source location _ _

end Again

section Laws

variable {session : Session} {source : Source} {lines : List String} {line : Nat}
  {old head value answer : String} {ask : String → Option String}

/-- **An edit puts a value on its line.**  Where a line of a source can be cut and the answer to its
value is new, not blank and on one line, the answer is written behind the head and is what the line
is cut into from then on; all other lines stay.  The same answer given to it again changes nothing.
Another one leaves the session, and so the file, as if it had been given first. -/
theorem edits_of_one_line (hRead : session.editor.readLines source = .ok lines) (hFirst : 1 ≤ line)
    (hOld : lines[line - 1]? = some old) (hHead : Line.assignment? old = some (head, value))
    (hAsk : ask value = some answer) (hNe : Text.trimmed answer ≠ "")
    (hNew : Text.trimmed answer ≠ value) (hBreak : '\n' ∉ (Text.trimmed answer).toList) :
    let new := Text.trimmed answer
    let report := (session.edit source line ask).1
    let edited := (session.edit source line ask).2
    report.offered = some value ∧ report.result = .ok true ∧
      edited.editor.readLines source = .ok (lines.set (line - 1) (head ++ " " ++ new)) ∧
      Line.assignment? (head ++ " " ++ new) = some (head, new) ∧
      (∀ again, again new = some answer →
        edited.edit source line again = (⟨some new, .ok false⟩, edited)) ∧
      ∀ next first other, next new = some other → first value = some other →
        Text.trimmed other ≠ "" → Text.trimmed other ≠ value →
        (edited.edit source line next).2 = (session.edit source line first).2 := by
  intro new report edited
  obtain ⟨location, text, hOpen, rfl⟩ := Editor.openText_cases hRead
  obtain ⟨front, chars, ending, rest, hLine, rfl⟩ := Text.exists_isLineAt_of_getElem? hFirst hOld
  -- whichever answer comes first is written into the same cut of the text that stands there now
  have hEdit : ∀ {first : String → Option String} {other : String}, first value = some other →
      Text.trimmed other ≠ "" → Text.trimmed other ≠ value →
      session.edit source line first = (⟨some value, .ok true⟩, session.rewritten source location
        (front ++ ((head ++ " " ++ Text.trimmed other).toList ++ ending ++ rest))) :=
    fun hGiven hSome hOther => edit_of_replacement hOpen hLine hHead
      (replacement?_eq_some_iff.mpr ⟨_, hGiven, rfl, hSome, hOther⟩)
  have hReport : report = ⟨some value, .ok true⟩ := congrArg Prod.fst (hEdit hAsk hNe hNew)
  have hEdited : edited = session.rewritten source location
      (front ++ ((head ++ " " ++ new).toList ++ ending ++ rest)) :=
    congrArg Prod.snd (hEdit hAsk hNe hNew)
  rw [hReport, hEdited]
  refine ⟨rfl, rfl, ?_, Line.assignment?_assign hHead answer, ?_, ?_⟩
  · rw [editor_rewritten]
    exact Editor.readLines_rewritten hOpen hLine (edited_ne_nil head _)
      (break_notMem_edited hLine hHead hBreak) (getLast?_edited hNe head (by decide))
  · intro again hAgain
    exact edit_same_again hOpen hLine hHead hNe hBreak rfl hAgain
  · intro next first other hNext hGiven hSome hOther
    rw [hEdit hGiven hSome hOther]
    by_cases hSame : Text.trimmed other = new
    · rw [edit_same_again hOpen hLine hHead hNe hBreak hSame hNext, hSame]
    · exact edit_other_again hOpen hLine hHead hNe hBreak hSome hSame hNext

end Laws

/-- An item with a quoted key, on a line that ends in a carriage return and a line feed, is edited
three times. -/
theorem edits_of_one_line_item :
    let text := "items:\r\n  - \"name\": web\r\nlast: 1"
    let volume : Volume := { tree := .directory [("a.yaml", .file (.text text))] }
    let session : Session :=
      { editor := { volume, current := some "/a.yaml" }, cache := { lifetime := 1000 } }
    let ask : String → Option String := fun _ => some " a:b "
    let edited := (session.edit .focus 2 ask).2
    edited.editor.readLines .focus = .ok ["items:", "  - \"name\": a:b", "last: 1"] ∧
      (edited.edit .focus 2 ask).2 = edited ∧
      (edited.edit .focus 2 fun _ => some "api").2 =
        (session.edit .focus 2 fun _ => some "api").2 := by
  intro text volume session ask edited
  have hRead : session.editor.readLines .focus =
      .ok ["items:", "  - \"name\": web", "last: 1"] := by decide
  have hHead : Line.assignment? "  - \"name\": web" = some ("  - \"name\":", "web") := by decide
  have hAsk : ask "web" = some " a:b " := rfl
  obtain ⟨-, -, hAfter, -, hSame, hOther⟩ :=
    edits_of_one_line hRead (show 1 ≤ 2 by decide) rfl hHead hAsk (by decide) (by decide)
      (by decide)
  refine ⟨hAfter.trans (by decide), ?_, ?_⟩
  · have hAgain := hSame ask rfl
    exact (congrArg Prod.snd hAgain :)
  · exact hOther _ _ "api" rfl rfl (by decide) (by decide)

/-! ## The other lines -/

/-- Around a line all is kept just if it is exchanged for one line. -/
theorem others_kept_iff {lines between : List String} {line : Nat} (hFirst : 1 ≤ line)
    (hLast : line ≤ lines.length) :
    let after := lines.take (line - 1) ++ (between ++ lines.drop line)
    (after.length = lines.length ∧ ∀ n, n + 1 ≠ line → after[n]? = lines[n]?) ↔
      between.length = 1 := by
  intro after
  have hLength : after.length = line - 1 + (between.length + (lines.length - line)) := by
    rw [List.length_append, List.length_append, List.length_drop, List.length_take,
      Nat.min_eq_left (by omega)]
  constructor
  · rintro ⟨hSame, -⟩
    omega
  · intro hOne
    refine ⟨by omega, fun n hOther => ?_⟩
    obtain ⟨new, rfl⟩ := List.length_eq_one_iff.mp hOne
    have hSet : after = lines.set (line - 1) new := by
      rw [List.set_eq_take_append_cons_drop, if_pos (by omega),
        show line - 1 + 1 = line by omega]
      rfl
    rw [hSet, List.getElem?_set_ne (by omega)]

section Others

variable {session : Session} {source : Source} {lines : List String} {location : Location}
  {text : String} {line : Nat} {front old ending rest : List Char} {head value answer : String}

/-- What an edit writes is one line, and one more for each line feed in the answer. -/
theorem length_linesOf_edited {s : List Char} (hLine : Text.IsLineAt s line front old ending rest)
    (hHead : Line.assignment? (String.ofList old) = some (head, value))
    (hNe : Text.trimmed answer ≠ "") :
    (Text.linesOf (head ++ " " ++ Text.trimmed answer)).length =
      (Text.trimmed answer).toList.count '\n' + 1 := by
  have hCount : head.toList.count '\n' = 0 :=
    List.count_eq_zero.mpr (break_notMem_head hLine hHead)
  rw [Text.linesOf, List.length_map,
    Text.length_lines (edited_ne_nil head _) (getLast?_edited hNe head (by decide)),
    String.toList_append, String.toList_append, List.count_append, List.count_append, hCount]
  simp

/-- The lines of a source behind an edit that has written an answer. -/
theorem readLines_edited (hOpen : session.editor.openText source = .ok (location, text))
    (hLine : Text.IsLineAt text.toList line front old ending rest) (head : String)
    (hNe : Text.trimmed answer ≠ "") :
    let lines := Text.linesOf text
    let new := head ++ " " ++ Text.trimmed answer
    (session.rewritten source location
        (front ++ (new.toList ++ ending ++ rest))).editor.readLines source =
      .ok (lines.take (line - 1) ++ (Text.linesOf new ++ lines.drop line)) := by
  intro lines new
  rw [editor_rewritten, Editor.readLines_of_openText (Editor.openText_rewritten hOpen _),
    Text.linesOf_splice hLine (edited_ne_nil head _) (getLast?_edited hNe head (by decide))
      (getLast?_edited hNe head (by decide))]

/-- **An edit touches no other line just if its trimmed answer has no line feed.**  The lines in
front of the edited one stay where they are; those behind it come behind the lines of the answer,
one further down for each line feed in it.  An edit that writes nothing leaves all lines as they
were. -/
theorem edit_keeps_other_lines_iff (hRead : session.editor.readLines source = .ok lines)
    (line : Nat) (ask : String → Option String) :
    let report := (session.edit source line ask).1
    let edited := (session.edit source line ask).2
    ∃ after, edited.editor.readLines source = .ok after ∧
      ((after.length = lines.length ∧ ∀ n, n + 1 ≠ line → after[n]? = lines[n]?) ↔
        ∀ answer, report.result = .ok true → report.offered.bind ask = some answer →
          '\n' ∉ (Text.trimmed answer).toList) ∧
      (report.result ≠ .ok true → after = lines) ∧
      (report.result = .ok true → ∃ head value answer,
        lines[line - 1]?.bind Line.assignment? = some (head, value) ∧
        report.offered = some value ∧ ask value = some answer ∧
        after = lines.take (line - 1) ++
          (Text.linesOf (head ++ " " ++ Text.trimmed answer) ++ lines.drop line) ∧
        after.length = lines.length + (Text.trimmed answer).toList.count '\n') := by
  intro report edited
  obtain ⟨location, text, hOpen, rfl⟩ := Editor.openText_cases hRead
  rcases edit_kept_or_written hOpen line ask with ⟨hKept, hSame⟩ | hWritten
  · refine ⟨Text.linesOf text, ?_, ?_, fun _ => rfl, fun hTrue => absurd hTrue hKept⟩
    · rw [show edited = session from hSame]
      exact hRead
    · exact iff_of_true ⟨rfl, fun _ _ => rfl⟩ fun _ hTrue => absurd hTrue hKept
  · obtain ⟨front, old, ending, rest, head, value, answer, hLine, hHead, hAsk, hNe, -, hEdit⟩ :=
      hWritten
    have hReport : report = ⟨some value, .ok true⟩ := congrArg Prod.fst hEdit
    have hEdited : edited = session.rewritten source location
        (front ++ ((head ++ " " ++ Text.trimmed answer).toList ++ ending ++ rest)) :=
      congrArg Prod.snd hEdit
    have hCount := length_linesOf_edited hLine hHead hNe
    have hIn : 1 ≤ line ∧ line ≤ (Text.linesOf text).length := by
      rw [Text.linesOf, List.length_map]
      exact hLine.bounds
    rw [hReport, hEdited]
    refine ⟨_, readLines_edited hOpen hLine head hNe, ?_, fun hNot => absurd rfl hNot, fun _ => ?_⟩
    · refine (others_kept_iff hIn.1 hIn.2).trans ?_
      rw [hCount, Nat.add_eq_right, List.count_eq_zero]
      constructor
      · intro hBreak given _ hGiven
        rw [Option.some.inj (hGiven.symm.trans hAsk)]
        exact hBreak
      · intro hBreak
        exact hBreak answer rfl hAsk
    · refine ⟨head, value, answer, ?_, rfl, hAsk, rfl, ?_⟩
      · rw [Text.getElem?_linesOf hLine]
        exact hHead
      · rw [List.length_append, List.length_append, hCount, List.length_take, List.length_drop]
        omega

end Others

/-- An answer of two lines is given to the first line of two. -/
theorem edit_keeps_other_lines_iff_two_lines :
    let volume : Volume := { tree := .directory [("a.yaml", .file (.text "a: 1\nb: 2\n"))] }
    let session : Session :=
      { editor := { volume, current := some "/a.yaml" }, cache := { lifetime := 1000 } }
    let lines := ["a: 1", "b: 2"]
    let edit := session.edit .focus 1 fun _ => some "x\nb: 9"
    session.editor.readLines .focus = .ok lines ∧ edit.1.result = .ok true ∧
      ∃ after, edit.2.editor.readLines .focus = .ok after ∧ after = ["a: x", "b: 9", "b: 2"] ∧
        ¬ (after.length = lines.length ∧ ∀ n, n + 1 ≠ 1 → after[n]? = lines[n]?) := by
  intro volume session lines edit
  have hRead : session.editor.readLines .focus = .ok lines := by decide
  obtain ⟨after, hAfter, hOthers, -, hWritten⟩ :=
    edit_keeps_other_lines_iff hRead 1 fun _ => some "x\nb: 9"
  have hResult : edit.1.result = .ok true := by decide
  have hOffered : edit.1.offered = some "1" := by decide
  obtain ⟨head, value, answer, hHead, -, hAsk, hLines, -⟩ := hWritten hResult
  have hCut : lines[1 - 1]?.bind Line.assignment? = some ("a:", "1") := by decide
  obtain ⟨rfl, rfl⟩ := Prod.mk.inj (Option.some.inj (hHead.symm.trans hCut))
  refine ⟨hRead, hResult, after, hAfter, ?_, fun hKept => ?_⟩
  · rw [hLines, ← Option.some.inj hAsk]
    decide
  · have hNone := hOthers.mp hKept "x\nb: 9" hResult (by rw [hOffered]; rfl)
    exact absurd hNone (by decide)

/-! ## Lines without a key -/

section Keyless

variable {session : Session} {source : Source} {lines : List String} {line : Nat}
  {old head value : String}

/-- The edit of a line that is cut offers what stands behind its colon. -/
theorem offered_edit (hRead : session.editor.readLines source = .ok lines) (hFirst : 1 ≤ line)
    (hOld : lines[line - 1]? = some old) (hHead : Line.assignment? old = some (head, value))
    (ask : String → Option String) : (session.edit source line ask).1.offered = some value := by
  obtain ⟨location, text, hOpen, rfl⟩ := Editor.openText_cases hRead
  obtain ⟨front, chars, ending, rest, hLine, rfl⟩ := Text.exists_isLineAt_of_getElem? hFirst hOld
  cases hNew : replacement? value (ask value) with
  | none => rw [edit_of_kept hOpen hLine hHead hNew]
  | some new => rw [edit_of_replacement hOpen hLine hHead hNew]

/-- **A line without a key is refused just if it is no comment with a colon.**  A line that is
refused is not asked about, and the session stays.  A comment with a colon is edited: what stands
behind its first colon is offered, and a new answer on one line is written in its place. -/
theorem keyless_line_refused_iff (hRead : session.editor.readLines source = .ok lines)
    (hFirst : 1 ≤ line) (hOld : lines[line - 1]? = some old)
    (hKey : (Line.classify old).key? = none) :
    ((∀ ask, session.edit source line ask = (⟨none, .error (.noValue line old)⟩, session)) ↔
        ∀ lead before after, ¬ Line.IsNote old.toList lead before after) ∧
      ∀ lead before after, Line.IsNote old.toList lead before after → ∀ ask,
        let head := String.ofList (lead ++ '#' :: before ++ [':'])
        let value := String.ofList (Text.trim after)
        let report := (session.edit source line ask).1
        let edited := (session.edit source line ask).2
        report.offered = some value ∧
          ∀ answer, ask value = some answer → Text.trimmed answer ≠ "" →
            Text.trimmed answer ≠ value → '\n' ∉ (Text.trimmed answer).toList →
            report.result = .ok true ∧ edited.editor.readLines source =
              .ok (lines.set (line - 1) (head ++ " " ++ Text.trimmed answer)) := by
  refine ⟨⟨fun hRefused lead before after hNote => ?_, fun hNone ask => ?_⟩, ?_⟩
  -- the value is offered before there is an answer, so a question without one tells them apart
  · have hOffered := offered_edit hRead hFirst hOld hNote.assignment?_eq fun _ => none
    rw [hRefused] at hOffered
    exact absurd hOffered (by simp)
  · have hCut := (Line.assignment?_eq_none_iff hKey).mpr hNone
    obtain ⟨location, text, hOpen, rfl⟩ := Editor.openText_cases hRead
    obtain ⟨front, chars, ending, rest, hLine, rfl⟩ := Text.exists_isLineAt_of_getElem? hFirst hOld
    exact edit_of_keyless hOpen hLine hCut ask
  · intro lead before after hNote ask head value report edited
    refine ⟨offered_edit hRead hFirst hOld hNote.assignment?_eq ask, ?_⟩
    intro answer hAsk hNe hNew hBreak
    obtain ⟨editor, hEdit, hAfter⟩ :=
      edit_of_assignment hRead hFirst hOld hNote.assignment?_eq hAsk hNe hNew hBreak
    have hReport : report = ⟨some value, .ok true⟩ := congrArg Prod.fst hEdit
    have hEdited : edited = { session with editor }.forgetEdited source := congrArg Prod.snd hEdit
    refine ⟨by rw [hReport], ?_⟩
    rw [hEdited, (forgetEdited_same { session with editor } source).1]
    exact hAfter

end Keyless

/-- A comment with a colon is edited, and the item below it is refused. -/
theorem keyless_line_refused_iff_note :
    let volume : Volume :=
      { tree := .directory [("a.yaml", .file (.text "# note: old\n- item\n"))] }
    let session : Session :=
      { editor := { volume, current := some "/a.yaml" }, cache := { lifetime := 1000 } }
    let ask : String → Option String := fun _ => some "new"
    (Line.classify "# note: old").key? = none ∧
      (session.edit .focus 1 ask).1.offered = some "old" ∧
      (session.edit .focus 1 ask).2.editor.readLines .focus = .ok ["# note: new", "- item"] ∧
      (Line.classify "- item").key? = none ∧
      session.edit .focus 2 ask = (⟨none, .error (.noValue 2 "- item")⟩, session) := by
  intro volume session ask
  have hRead : session.editor.readLines .focus = .ok ["# note: old", "- item"] := by decide
  have hFirst : (Line.classify "# note: old").key? = none := by decide
  have hSecond : (Line.classify "- item").key? = none := by decide
  have hNote : Line.IsNote "# note: old".toList [] " note".toList " old".toList :=
    ⟨by decide, fun _ hc => absurd hc List.not_mem_nil, by decide⟩
  obtain ⟨-, hEdit⟩ := keyless_line_refused_iff hRead (show 1 ≤ 1 by decide) rfl hFirst
  obtain ⟨hOffered, hWritten⟩ := hEdit [] " note".toList " old".toList hNote ask
  obtain ⟨-, hAfter⟩ := hWritten "new" rfl (by decide) (by decide) (by decide)
  obtain ⟨hRefused, -⟩ := keyless_line_refused_iff hRead (show 1 ≤ 2 by decide) rfl hSecond
  refine ⟨hFirst, hOffered, hAfter.trans (by decide), hSecond, ?_⟩
  have hItem : ¬ Line.IsAside "- item".toList := by decide
  exact hRefused.mpr (fun lead before after hNote => hItem hNote.isAside) ask

end Session

end YamlIndex
