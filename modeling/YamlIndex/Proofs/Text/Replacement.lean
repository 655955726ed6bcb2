import YamlIndex.Proofs.OtherFiles
import YamlIndex.Proofs.Text.Splicing

/-!
# Exchanging a line of a source

A line is exchanged in the file of a source as it is written: the file is read, cut around the line,
put together with the new text in its place, and written back.  Nothing but this file changes.  Read
again, the source has the lines of the new text where it had the old line.

## Main results

* `Editor.replaceLine_of_isLineAt`: the editor after a line was exchanged.
* `Editor.readLines_rewritten`: what is read when a line was exchanged for another one.
* `Editor.replaceLine_splices`: when a line is exchanged, and what the file holds then.
-/

namespace YamlIndex

namespace Text

theorem getElem?_linesOf {text : String} {number : Nat} {front line ending rest : List Char}
    (h : IsLineAt text.toList number front line ending rest) :
    (linesOf text)[number - 1]? = some (String.ofList line) := by
  rw [linesOf, List.getElem?_map, h.getElem?]
  rfl

/-- A line of a text stands somewhere in it. -/
theorem exists_isLineAt_of_getElem? {text line : String} {number : Nat} (hFirst : 1 ≤ number)
    (h : (linesOf text)[number - 1]? = some line) :
    ∃ front chars ending rest, IsLineAt text.toList number front chars ending rest ∧
      String.ofList chars = line := by
  obtain ⟨hLast, -⟩ := List.getElem?_eq_some_iff.mp h
  rw [linesOf, List.length_map] at hLast
  obtain ⟨front, chars, ending, rest, hLine⟩ := exists_isLineAt hFirst
    (show number ≤ (lines text.toList).length by omega)
  rw [getElem?_linesOf hLine] at h
  exact ⟨front, chars, ending, rest, hLine, Option.some.inj h⟩

/-- The lines of a text when something is written in place of a line: those in front of the line,
those of what was written, and those behind the line. -/
theorem linesOf_splice {text new : String} {number : Nat} {front line ending rest : List Char}
    (h : IsLineAt text.toList number front line ending rest) (hNe : new.toList ≠ [])
    (hBreak : new.toList.getLast? ≠ some '\n') (hReturn : new.toList.getLast? ≠ some '\r') :
    linesOf (String.ofList (front ++ (new.toList ++ ending ++ rest))) =
      (linesOf text).take (number - 1) ++ (linesOf new ++ (linesOf text).drop number) := by
  rw [linesOf, String.toList_ofList, h.lines_splice hNe hBreak hReturn, List.map_append,
    List.map_append, linesOf, linesOf, ← List.map_take, ← List.map_drop, h.take, h.drop]

end Text

namespace Editor

section Source

variable {editor : Editor} {source : Source} {location : Location} {text : String}

theorem readLines_of_openText (h : editor.openText source = .ok (location, text)) :
    editor.readLines source = .ok (Text.linesOf text) := by
  rw [readLines, h]
  rfl

/-! ## Writing the file of a source -/

/-- The editor with another text in the file at a location. -/
def rewritten (editor : Editor) (location : Location) (chars : List Char) : Editor :=
  { editor with volume := editor.volume.write location (.text (String.ofList chars)) }

/-- A file that is open can be written, and is then read as it was written. -/
theorem openText_rewritten (h : editor.openText source = .ok (location, text))
    (chars : List Char) :
    (editor.rewritten location chars).openText source = .ok (location, String.ofList chars) := by
  have hFile : (editor.volume.write location (.text (String.ofList chars))).isFile location =
      true := by
    rw [Volume.isFile, Volume.find?, Volume.write, FileTree.find?_write]
  obtain ⟨path, hPath, hLocation, -, -⟩ := openText_eq_ok_iff.mp h
  refine openText_eq_ok_iff.mpr ⟨path, ?_, hLocation, hFile, Volume.readText_write ..⟩
  rw [← hPath]
  cases source <;> rfl

/-- Of two texts that are written to one file the second one stays. -/
theorem rewritten_rewritten (editor : Editor) (location : Location) (first second : List Char) :
    (editor.rewritten location first).rewritten location second =
      editor.rewritten location second := by
  have hTree := FileTree.put_put location (.file (.text (String.ofList first)))
    (.file (.text (String.ofList second))) editor.volume.tree
  simp only [rewritten, Volume.write, FileTree.write, hTree]

/-! ## Exchanging a line -/

section Line

variable {number : Nat} {front line ending rest : List Char}

/-- The editor after a line was exchanged: the file is as it was in front of the line and behind it.
-/
theorem replaceLine_of_isLineAt (hOpen : editor.openText source = .ok (location, text))
    (hLine : Text.IsLineAt text.toList number front line ending rest) (new : String) :
    editor.replaceLine source number new =
      .ok (editor.rewritten location (front ++ (new.toList ++ ending ++ rest))) := by
  rw [replaceLine, hOpen]
  simp only [bind, Except.bind, hLine.replaceBody]
  rfl

/-- A line that is exchanged for another one is this one from then on, and all others stay. -/
theorem readLines_rewritten (hOpen : editor.openText source = .ok (location, text))
    (hLine : Text.IsLineAt text.toList number front line ending rest) {new : String}
    (hNe : new.toList ≠ []) (hBreak : '\n' ∉ new.toList)
    (hReturn : new.toList.getLast? ≠ some '\r') :
    (editor.rewritten location (front ++ (new.toList ++ ending ++ rest))).readLines source =
      .ok ((Text.linesOf text).set (number - 1) new) := by
  have hSplice := hLine.splice hNe hBreak hReturn
  rw [readLines_of_openText (openText_rewritten hOpen _), Text.linesOf, String.toList_ofList,
    hSplice.lines, hLine.lines_eq_set, List.map_set, String.ofList_toList, Text.linesOf]

end Line

/-- A source is written only where it has a line. -/
theorem replaceLine_of_not (hOpen : editor.openText source = .ok (location, text)) {number : Nat}
    (h : ¬ (1 ≤ number ∧ number ≤ (Text.linesOf text).length)) (new : String) :
    editor.replaceLine source number new =
      .error (.lineOutOfRange source number (Text.linesOf text).length) := by
  have hCount : (Text.linesOf text).length = (Text.lines text.toList).length := List.length_map ..
  have hPieces : (Text.linesOf text).length = (Text.pieces text.toList).length := by
    rw [hCount, Text.lines, List.length_map]
  have hNone : Text.replaceBody number new.toList text.toList = none := by
    rw [← Option.not_isSome_iff_eq_none, Text.replaceBody_isSome_iff, ← hCount]
    exact h
  rw [replaceLine, hOpen]
  simp only [bind, Except.bind, hNone, hPieces]

/-- **A line of a source is exchanged just if the source has it.**  The file is then written as it
was in front of the line, with the new text in its place, and as it was behind it, what ends the
line included; a new line is read back in the place of the old one.  Otherwise the number of the
lines is reported, no editor is given, and the one that stands has the file as it was. -/
theorem replaceLine_splices (hOpen : editor.openText source = .ok (location, text)) (number : Nat)
    (new : String) :
    let lines := Text.linesOf text
    let result := editor.replaceLine source number new
    editor.readLines source = .ok lines ∧
      ((∃ changed, result = .ok changed) ↔ 1 ≤ number ∧ number ≤ lines.length) ∧
      (∀ changed, result = .ok changed → ∃ front line ending rest,
        Text.IsLineAt text.toList number front line ending rest ∧
        lines[number - 1]? = some (String.ofList line) ∧
        changed = editor.rewritten location (front ++ (new.toList ++ ending ++ rest)) ∧
        changed.openText source =
          .ok (location, String.ofList (front ++ (new.toList ++ ending ++ rest))) ∧
        (new ≠ "" → '\n' ∉ new.toList → new.toList.getLast? ≠ some '\r' →
          changed.readLines source = .ok (lines.set (number - 1) new))) ∧
      (¬ (1 ≤ number ∧ number ≤ lines.length) →
        result = .error (.lineOutOfRange source number lines.length) ∧
          (result.toOption.getD editor).openText source = .ok (location, text)) := by
  intro lines result
  have hRead : editor.readLines source = .ok lines := readLines_of_openText hOpen
  by_cases hIn : 1 ≤ number ∧ number ≤ lines.length
  · have hLast : number ≤ (Text.lines text.toList).length := by
      have hCount : lines.length = (Text.lines text.toList).length := List.length_map ..
      omega
    obtain ⟨front, line, ending, rest, hLine⟩ := Text.exists_isLineAt hIn.1 hLast
    have hOk : result = .ok (editor.rewritten location (front ++ (new.toList ++ ending ++ rest))) :=
      replaceLine_of_isLineAt hOpen hLine new
    refine ⟨hRead, iff_of_true ⟨_, hOk⟩ hIn, ?_, fun hNot => absurd hIn hNot⟩
    intro changed hChanged
    rw [hOk] at hChanged
    cases hChanged
    exact ⟨front, line, ending, rest, hLine, Text.getElem?_linesOf hLine, rfl,
      openText_rewritten hOpen _, fun hNe hBreak hReturn =>
        readLines_rewritten hOpen hLine (by simpa using hNe) hBreak hReturn⟩
  · have hError : result = .error (.lineOutOfRange source number lines.length) :=
      replaceLine_of_not hOpen hIn new
    refine ⟨hRead, iff_of_false ?_ hIn, ?_, fun _ => ⟨hError, ?_⟩⟩
    · rintro ⟨changed, hChanged⟩
      rw [hError] at hChanged
      exact absurd hChanged (by simp)
    · intro changed hChanged
      rw [hError] at hChanged
      exact absurd hChanged (by simp)
    · rw [hError]
      exact hOpen

end Source

/-- The second of four lines, with a lone carriage return in it and one that belongs to its ending,
in a file that does not end in a line feed. -/
theorem replaceLine_splices_mixed :
    let text := "a: 1\r\nb: 2\r\r\n\nlast"
    let editor : Editor :=
      { volume := { tree := .directory [("a.yaml", .file (.text text))] }
        current := some "/a.yaml" }
    editor.readLines .focus = .ok ["a: 1", "b: 2\r", "", "last"] ∧
      ∃ changed, editor.replaceLine .focus 2 "b: 3" = .ok changed ∧
        changed.readLines .focus = .ok ["a: 1", "b: 3", "", "last"] := by
  intro text editor
  have hOpen : editor.openText .focus = .ok (["a.yaml"], text) := by decide
  obtain ⟨hRead, hSome, hCut, -⟩ := replaceLine_splices hOpen 2 "b: 3"
  obtain ⟨changed, hChanged⟩ := hSome.mpr (by decide)
  obtain ⟨front, line, ending, rest, -, -, -, -, hLines⟩ := hCut changed hChanged
  refine ⟨hRead.trans (by decide), changed, hChanged, ?_⟩
  rw [hLines (by decide) (by decide) (by decide)]
  decide

end Editor

end YamlIndex
