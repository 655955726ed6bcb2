import YamlIndex.Proofs.Path.Dotted
import YamlIndex.Proofs.Session.Landing
import YamlIndex.Proofs.Session.Tags
import YamlIndex.Proofs.Steps

/-!
# Jumping to the same target again

A jump to a path leaves the text of this path in the ledger.  To go there again the text is read
back and looked for in the lines, from the top, at or below the path.  The text of a key may be read
back as something else: blanks around it are lost, and a number has become a position.  Then another
path is looked for, and often there is none.  With plain keys the path is found, on the line of the
entry or further up.

While the contents of a source stay, whatever is remembered of it are its lines and their entries,
tagged with a file or not.

## Main results

* `isListed_of_kept`: what is remembered of a source along a run in which its contents stay.
* `jumpBack_of_kept`: where a jump to an earlier path leads.
* `jumpBack_after_jumpTo`: when it leads back to the path that was jumped to.
-/

namespace YamlIndex

open Project (Scanner)

/-! ## Entries apart from their file -/

/-- The entry without the file that it says it is from. -/
def EntryKind.untagged : (kind : EntryKind) → kind.Entry → kind.Entry
  | path, entry => { entry with file := none }
  | value, entry => { entry with file := none }

theorem EntryKind.map_untagged_within (kind : EntryKind) (entries : List kind.Entry)
    (file : FileMeta) :
    (entries.map fun entry => kind.within entry file).map kind.untagged =
      entries.map kind.untagged := by
  rw [List.map_map]
  refine List.map_congr_left fun entry _ => ?_
  cases kind <;> rfl

theorem EntryKind.untagged_of_file {kind : EntryKind} {entry : kind.Entry}
    (h : kind.file entry = none) : kind.untagged entry = entry := by
  cases kind with
  | path =>
      obtain ⟨_, _, _, _, _, _, file⟩ := entry
      obtain rfl : file = none := h
      rfl
  | value =>
      obtain ⟨_, _, _, _, _, file⟩ := entry
      obtain rfl : file = none := h
      rfl

/-- What is made from lines has no file to begin with. -/
theorem map_untagged_entriesWith (tree : Option Node) (lines : List String) (kind : EntryKind) :
    (entriesWith tree lines kind).map kind.untagged = entriesWith tree lines kind := by
  conv => rhs; rw [← List.map_id (entriesWith tree lines kind)]
  refine List.map_congr_left fun entry hEntry => ?_
  exact EntryKind.untagged_of_file (file_entriesWith tree lines kind entry hEntry)

/-- Whether a result is made from the lines by the scan, whatever file its entries say they are
from. -/
def Slot.IsListing (lines : List String) : (slot : Slot) → slot.Content → Prop
  | .lines, value => value = lines
  | .tree, _ => True
  | .entries kind, value => value.map kind.untagged = entriesWith none lines kind

namespace Session

/-- Whatever is remembered under the key is made from the lines by the scan. -/
def IsListed (session : Session) (key : String) (lines : List String) : Prop :=
  ∀ slot record, session.cache.record? slot key = some record → slot.IsListing lines record.value

section IsListed

variable {session after : Session} {key : String} {lines : List String}

theorem IsListed.get? (h : session.IsListed key lines) {slot : Slot} {value : slot.Content}
    (hGet : session.cache.get? slot key = some value) : slot.IsListing lines value := by
  obtain ⟨record, hRecord, rfl⟩ := Cache.exists_record?_of_get? hGet
  exact h slot record hRecord

theorem IsListed.remember (h : session.IsListed key lines) {slot : Slot} {value : slot.Content}
    {other : String} (hValue : other = key → slot.IsListing lines value) :
    (session.remember slot other value).IsListed key lines := by
  intro otherSlot record hRecord
  rcases Cache.record?_put_cases hRecord with ⟨rfl, rfl, hSame⟩ | ⟨-, hOld⟩
  · rw [hSame]
    exact hValue rfl
  · exact h otherSlot record hOld

theorem IsListed.of_extends (h : session.IsListed key lines) {other : String}
    (hExtends : Extends other session after) (hKey : key ≠ other) : after.IsListed key lines := by
  intro slot record hRecord
  rw [hExtends.others slot key hKey] at hRecord
  exact h slot record hRecord

theorem tree_of_reader_none (hReader : session.reader = none) (key : String)
    (lines : List String) : session.tree key lines = (none, session) := by
  rw [tree, hReader]

/-- The lines of a source are answered, and remembered as such. -/
theorem IsListed.afterLines {source : Source} (h : session.IsListed source.key lines)
    (hRead : session.editor.readLines source = .ok lines) :
    ∃ asked, session.lines source = .ok (lines, asked) ∧ asked.IsListed source.key lines := by
  rcases lines_cases session source with
    ⟨found, hGet, hEq⟩ | ⟨-, read, hOwn, hEq⟩ | ⟨-, error, hError, -⟩
  · obtain rfl : found = lines := h.get? hGet
    exact ⟨session, hEq, h⟩
  · obtain rfl : lines = read := Except.ok.inj (hRead.symm.trans hOwn)
    exact ⟨_, hEq, h.remember fun _ => rfl⟩
  · rw [hRead] at hError
    exact absurd hError (by simp)

/-- The entries of a source are answered but for their file, and remembered as such. -/
theorem IsListed.afterEntries {source : Source} (h : session.IsListed source.key lines)
    (hReader : session.reader = none) (hRead : session.editor.readLines source = .ok lines)
    (kind : EntryKind) :
    ∃ entries asked, session.entries kind source = .ok (entries, asked) ∧
      entries.map kind.untagged = entriesWith none lines kind ∧
        asked.IsListed source.key lines := by
  rcases entries_cases session kind source with
    ⟨found, hGet, hEq⟩ | ⟨-, read, opened, hLines, hEq⟩ | ⟨-, error, hError, -⟩
  · exact ⟨found, session, hEq, h.get? hGet, h⟩
  · obtain ⟨asked, hOwn, hOpened⟩ := h.afterLines hRead
    obtain ⟨rfl, rfl⟩ : lines = read ∧ asked = opened :=
      Prod.mk.inj (Except.ok.inj (hOwn.symm.trans hLines))
    have hNone : asked.reader = none := (extends_lines hLines).reader.trans hReader
    rw [tree_of_reader_none hNone] at hEq
    have hMade := map_untagged_entriesWith none lines kind
    exact ⟨_, _, hEq, hMade, hOpened.remember fun _ => hMade⟩
  · obtain ⟨asked, hOwn, -⟩ := h.afterLines hRead
    rw [hOwn] at hError
    exact absurd hError (by simp)

theorem IsListed.asked {source : Source} (h : session.IsListed source.key lines)
    (hReader : session.reader = none) (hRead : session.editor.readLines source = .ok lines)
    {question : Question} (hSource : question.source.key = source.key → question.source = source) :
    (session.asked question).IsListed source.key lines := by
  by_cases hKey : question.source.key = source.key
  · cases question with
    | lines own =>
        obtain rfl : own = source := hSource hKey
        obtain ⟨asked, hLines, hAsked⟩ := h.afterLines hRead
        rw [Session.asked, hLines]
        exact hAsked
    | entries kind own =>
        obtain rfl : own = source := hSource hKey
        obtain ⟨entries, asked, hEntries, -, hAsked⟩ := h.afterEntries hReader hRead kind
        rw [Session.asked, hEntries]
        exact hAsked
  · exact h.of_extends (extends_asked session question) (Ne.symm hKey)

/-! ## Projects -/

/-- The files of a project leave what is remembered under the key made from the lines, if the one
with this path has these lines. -/
theorem IsListed.collect (h : session.IsListed key lines) (hReader : session.reader = none)
    (kind : EntryKind) {scanner : Scanner} {locations : List Location}
    (hFiles : ∀ location ∈ locations, (scanner.metaOf location).path = key →
      ∀ read, scanner.readLines location = .ok read → read = lines) :
    (collect kind scanner locations session).2.IsListed key lines := by
  induction locations generalizing session with
  | nil => exact h
  | cons location rest ih =>
      have hRest := fun other hOther => hFiles other (List.mem_cons_of_mem _ hOther)
      rw [Session.collect]
      cases hLines : session.fileLines scanner location with
      | none => exact ih h hReader hRest
      | some result =>
          obtain ⟨read, opened⟩ := result
          have hOpenedReader : opened.reader = none :=
            (extends_fileLines hLines).reader.trans hReader
          have hOpened : opened.IsListed key lines ∧
              ((scanner.metaOf location).path = key → read = lines) := by
            rcases fileLines_cases hLines with ⟨hGet, rfl⟩ | ⟨hRead, rfl⟩
            · refine ⟨h, fun hKey => ?_⟩
              subst hKey
              exact h.get? hGet
            · have hOwn := fun hKey => hFiles location List.mem_cons_self hKey read hRead
              exact ⟨h.remember hOwn, hOwn⟩
          obtain ⟨hListed, hOwn⟩ := hOpened
          have hEntries : (opened.fileEntries kind (scanner.metaOf location) read).2.IsListed key
              lines := by
            rcases fileEntries_cases opened kind (scanner.metaOf location) read with
              ⟨_, -, hEq⟩ | ⟨entries, -, hMade, hEq⟩
            · rw [hEq]
              exact hListed
            · rw [tree_of_reader_none hOpenedReader] at hMade hEq
              rw [hEq]
              refine hListed.remember fun hKey => ?_
              rw [Slot.IsListing, hMade, EntryKind.map_untagged_within, map_untagged_entriesWith,
                hOwn hKey]
          refine ih hEntries ?_ hRest
          exact (extends_fileEntries opened kind _ read).reader.trans hOpenedReader

end IsListed

/-! ## While the contents stay -/

/-- The sessions without a reader that begin with nothing remembered, in which a source has the same
lines all the time.  No other source with its key is asked for, a project reads these lines from the
file with its key as a path, and the editor may be used for anything else. -/
inductive Kept (source : Source) (lines : List String) : Session → Prop where
  | start {session : Session} (hEmpty : ∀ slot key, session.cache.record? slot key = none)
      (hReader : session.reader = none) (hLines : session.editor.readLines source = .ok lines) :
      Kept source lines session
  | perform {session : Session} {action : Action} (hSession : Kept source lines session)
      (hSource : ∀ question, session.question? action = some question →
        question.source.key = source.key → question.source = source)
      (hProject : ∀ kind scanner listing, action = .project kind scanner →
        scanner.list = .ok listing → ∀ location ∈ listing.files,
          (scanner.metaOf location).path = source.key →
            ∀ read, scanner.readLines location = .ok read → read = lines)
      (hLines : (session.perform action).editor.readLines source = .ok lines) :
      Kept source lines (session.perform action)
  | change {session : Session} {editor : Editor} (hSession : Kept source lines session)
      (hLines : editor.readLines source = .ok lines) : Kept source lines { session with editor }

section Kept

variable {source : Source} {lines : List String} {session : Session}

theorem readLines_of_kept (h : Kept source lines session) :
    session.editor.readLines source = .ok lines := by
  cases h with
  | start hEmpty hReader hLines => exact hLines
  | perform hSession hSource hProject hLines => exact hLines
  | change hSession hLines => exact hLines

theorem reader_of_kept (h : Kept source lines session) : session.reader = none := by
  induction h with
  | start hEmpty hReader hLines => exact hReader
  | @perform session action hSession hSource hProject hLines ih =>
      exact (record?_of_perform session action).1.trans ih
  | change hSession hLines ih => exact ih

/-- While the contents of a source stay, what is remembered of it is made from them. -/
theorem isListed_of_kept (h : Kept source lines session) : session.IsListed source.key lines := by
  induction h with
  | start hEmpty hReader hLines =>
      intro slot record hRecord
      rw [hEmpty] at hRecord
      exact absurd hRecord (by simp)
  | @perform session action hSession hSource hProject hLines ih =>
      by_cases hIs : ∃ kind scanner, action = .project kind scanner
      · obtain ⟨kind, scanner, rfl⟩ := hIs
        rw [Session.perform, projectEntries]
        cases hList : scanner.list with
        | error error => exact ih
        | ok listing =>
            exact ih.collect (reader_of_kept hSession) kind
              (hProject kind scanner listing rfl hList)
      · have hBehind := (record?_of_afterQuestion session fun kind scanner hEq =>
          hIs ⟨kind, scanner, hEq⟩).2
        have hAsked : (session.afterQuestion action).IsListed source.key lines := by
          rw [afterQuestion]
          cases hQuestion : session.question? action with
          | none => exact ih
          | some question =>
              exact ih.asked (reader_of_kept hSession) (readLines_of_kept hSession)
                (hSource question hQuestion)
        exact fun slot record hRecord => hAsked slot record (hBehind slot _ record hRecord)
  | change hSession hLines ih => exact ih

/-! ## Jumps -/

/-- The cursor can be moved within a source that can be read. -/
theorem exists_moveTo {editor : Editor} (h : editor.readLines source = .ok lines) (line : Nat) :
    ∃ moved, editor.moveTo source line = .ok moved := by
  obtain ⟨location, text, hOpen, -⟩ := Editor.openText_cases h
  obtain ⟨path, hPath, hLocation, hFile, -⟩ := Editor.openText_eq_ok_iff.mp hOpen
  simp only [Editor.moveTo, Editor.load, bind, Except.bind, pure, Except.pure, hPath,
    Editor.locate_eq, hLocation, hFile, if_true]
  exact ⟨_, rfl⟩

/-- A jump to an earlier path leads to the first line that is at or below what its text is read back
as, and fails when there is no such line. -/
theorem jumpBack_of_kept (h : Kept source lines session) {picker : Picker} {text : String}
    (hRecalled : session.recalled? picker = some ⟨.path, text⟩) :
    match (findPath (Path.ofDotted text) lines none).head? with
    | none => (session.jumpBack source picker).1.result = .error (.gone ⟨.path, text⟩)
    | some found => ∃ action,
      (session.jumpBack source picker).1.result = .ok (some ⟨source, found.line, action⟩) := by
  obtain ⟨selection, -, -, hBack⟩ := jumpBack_of_some hRecalled source
  obtain ⟨asked, hLines, -⟩ := (isListed_of_kept h).afterLines (readLines_of_kept h)
  have hLine : session.lineOf source ⟨.path, text⟩ =
      .ok ((findPath (Path.ofDotted text) lines none).head?.map PathEntry.line, asked) := by
    rw [← head?_findPath_one, lineOf]
    dsimp only
    rw [find, hLines]
    rfl
  rw [hBack, hLine]
  cases (findPath (Path.ofDotted text) lines none).head? with
  | none => rfl
  | some found =>
      have hRead : asked.editor.readLines source = .ok lines := by
        rw [(extends_lines hLines).editor]
        exact readLines_of_kept h
      dsimp only [Option.map_some]
      rcases landed_land asked
        ⟨"YAML history", Choice.ofTargets session.ledger.records.reverse, [.jump]⟩ source
        found.line selection.action ⟨.path, text⟩ with
        ⟨error, hError, -⟩ | ⟨editor, -, hLanded⟩
      · obtain ⟨moved, hMoved⟩ := exists_moveTo hRead found.line
        rw [hMoved] at hError
        exact absurd hError (by simp)
      · rw [hLanded]
        exact ⟨selection.action, rfl⟩

/-- A jump to a path of a source is one to an entry of the scan, and enters the text of its path. -/
theorem jumpTo_of_kept (h : Kept source lines session) {picker : Picker} {jump : Jump}
    (hJump : (session.jumpTo .path source picker).1.result = .ok (some jump)) :
    ∃ entry ∈ scanPaths lines, jump.line = entry.line ∧
      (session.jumpTo .path source picker).2.ledger =
        session.ledger.add ⟨.path, entry.path.dotted⟩ := by
  obtain ⟨entries, asked, hEntries, hListing, -⟩ :=
    (isListed_of_kept h).afterEntries (reader_of_kept h) (readLines_of_kept h) .path
  rw [jumpTo, hEntries] at hJump ⊢
  dsimp only at hJump ⊢
  rcases pick_spec asked .path source entries picker with
    ⟨attempt, hPick, hNone⟩ | ⟨selection, entry, editor, -, hEntry, -, hPick⟩
  · rw [hPick] at hJump
    exact absurd hJump (hNone jump)
  · rw [hPick] at hJump ⊢
    cases hJump
    refine ⟨EntryKind.path.untagged entry, ?_, rfl, ?_⟩
    · show EntryKind.path.untagged entry ∈ entriesWith none lines .path
      rw [← hListing]
      exact List.mem_map_of_mem (List.mem_of_getElem? hEntry)
    · exact congrArg (Ledger.add · _) (extends_entries hEntries).ledger

/-- After a jump to an entry of a source, a jump back to its path goes to the first line at or below
what the text of the path is read back as, and fails when there is none.  Without dots in the keys
the text is read back segment by segment.  When each key is read back as it was, the jump back goes
to the line of the entry or further up, where the path of the entry or one below it stands. -/
theorem jumpBack_after_jumpTo (h : Kept source lines session)
    (hSize : lines.length ≤ Text.maxWord) {picker : Picker} {jump : Jump}
    (hJump : (session.jumpTo .path source picker).1.result = .ok (some jump)) :
    ∃ entry ∈ scanPaths lines, jump.line = entry.line ∧
      (session.jumpTo .path source picker).2.ledger =
        session.ledger.add ⟨.path, entry.path.dotted⟩ ∧
      ∀ later again, Kept source lines later →
        later.recalled? again = some ⟨.path, entry.path.dotted⟩ →
          let result := (later.jumpBack source again).1.result
          ((∀ name, .key name ∈ entry.path → '.' ∉ name.toList) →
            match (findPath (entry.path.filterMap Segment.reread?) lines none).head? with
            | none => result = .error (.gone ⟨.path, entry.path.dotted⟩)
            | some found => ∃ action, result = .ok (some ⟨source, found.line, action⟩)) ∧
          ((∀ name, .key name ∈ entry.path → IsLegibleKey name) →
            ∃ back first, result = .ok (some back) ∧ back.source = source ∧
              back.line ≤ entry.line ∧ first ∈ scanPaths lines ∧ first.line = back.line ∧
                first.path.startsWith entry.path = true) := by
  obtain ⟨entry, hEntry, hLine, hLedger⟩ := jumpTo_of_kept h hJump
  refine ⟨entry, hEntry, hLine, hLedger, fun later again hLater hRecalled => ?_⟩
  have hBack := jumpBack_of_kept hLater hRecalled
  constructor
  · intro hDots
    rw [Path.ofDotted_dotted hDots] at hBack
    exact hBack
  · intro hLegible
    have hPositions : ∀ n, .index n ∈ entry.path → n ≤ Text.maxWord := by
      obtain ⟨step, hStep, rfl⟩ := List.mem_map.mp hEntry
      exact fun n hn => (Scan.position_le_of_mem_steps hStep hn).trans hSize
    obtain ⟨found, first, hFound, hFirst, hSame, hAbove, hBelow⟩ := exists_first hEntry
    rw [Path.ofDotted_dotted_of_legible hLegible hPositions, hFound] at hBack
    obtain ⟨action, hResult⟩ := hBack
    exact ⟨_, first, hResult, rfl, hAbove, hFirst, hSame, hBelow⟩

end Kept

/-- Two jumps are made in one file.  The jump back to `spec.image` goes to its line, and the one to
`8080` fails although this key is still there, for its text is read back as a position. -/
theorem jumpBack_after_jumpTo_number :
    let text := "8080: http\nspec:\n  image: nginx\n"
    let volume : Volume := { tree := .directory [("a.yaml", .file (.text text))] }
    let start : Session :=
      { editor := { volume, current := some "/a.yaml" }, cache := { lifetime := 1000 } }
    let take (index : Nat) : Picker := fun _ => some ⟨⟨index, "", ""⟩, .jump⟩
    let port := start.perform (.jumpTo .path .focus (take 0))
    let image := port.perform (.jumpTo .path .focus (take 2))
    (∃ back, (image.jumpBack .focus (take 0)).1.result = .ok (some back) ∧
        back.source = .focus ∧ back.line = 3) ∧
      (image.jumpBack .focus (take 1)).1.result = .error (.gone ⟨.path, "8080"⟩) ∧
      (port.paths .focus).map (·.1.map fun entry => entry.path.dotted) =
        .ok ["8080", "spec", "spec.image"] := by
  intro text volume start take port image
  let lines := ["8080: http", "spec:", "  image: nginx"]
  have hStart : Kept .focus lines start :=
    .start (fun slot key => Cache.record?_clear { lifetime := 1000 } slot key) rfl (by decide)
  have hPort : Kept .focus lines port := by
    refine .perform hStart ?_ (by simp) (by decide)
    rintro question ⟨⟩ -
    rfl
  have hImage : Kept .focus lines image := by
    refine .perform hPort ?_ (by simp) (by decide)
    rintro question ⟨⟩ -
    rfl
  have hPaths : ∀ entry ∈ scanPaths lines,
      (1 = entry.line → entry.path = [.key "8080"]) ∧
        (3 = entry.line → entry.path = [.key "spec", .key "image"]) := by decide
  refine ⟨?_, ?_, by decide⟩
  · have hJump : (port.jumpTo .path .focus (take 2)).1.result =
        .ok (some ⟨.focus, 3, .jump⟩) := by decide
    obtain ⟨entry, hEntry, hLine, -, hBack⟩ := jumpBack_after_jumpTo hPort (by decide) hJump
    have hPath := (hPaths entry hEntry).2 hLine
    rw [hPath] at hBack
    have hLegible : ∀ name, Segment.key name ∈ [Segment.key "spec", Segment.key "image"] →
        IsLegibleKey name := by
      intro name hName
      simp only [List.mem_cons, Segment.key.injEq, List.not_mem_nil, or_false] at hName
      rcases hName with rfl | rfl
      · decide
      · decide
    obtain ⟨back, first, hResult, hSource, -, hFirst, hSame, hBelow⟩ :=
      (hBack image (take 0) hImage (by decide)).2 hLegible
    have hOnly : ∀ other ∈ scanPaths lines,
        other.path.startsWith [.key "spec", .key "image"] = true → other.line = 3 := by decide
    exact ⟨back, hResult, hSource, hSame ▸ hOnly first hFirst hBelow⟩
  · have hJump : (start.jumpTo .path .focus (take 0)).1.result =
        .ok (some ⟨.focus, 1, .jump⟩) := by decide
    obtain ⟨entry, hEntry, hLine, -, hBack⟩ := jumpBack_after_jumpTo hStart (by decide) hJump
    rw [(hPaths entry hEntry).1 hLine] at hBack
    have hDots : ∀ name, Segment.key name ∈ [Segment.key "8080"] → '.' ∉ name.toList := by
      intro name hName
      cases List.mem_singleton.mp hName
      decide
    have hResult := (hBack image (take 1) hImage (by decide)).1 hDots
    have hNone : (findPath ([Segment.key "8080"].filterMap Segment.reread?) lines none).head? =
        none := by decide
    rw [hNone] at hResult
    exact hResult

end Session

end YamlIndex
