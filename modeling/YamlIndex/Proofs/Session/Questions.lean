import YamlIndex.Proofs.Project.Extensions
import YamlIndex.Proofs.Session.Actions
import YamlIndex.Proofs.Session.Queries

/-!
# What an action asks

An action begins with at most one question, which reads the cache and may write records under the
key of its source.  Behind its question an action only takes records away.  Actions on a project are
the exception: they write under the path of each file of the project, and under no other key.

## Main results

* `extends_asked`: a question writes under the key of its source.
* `record?_of_afterQuestion`: what is remembered behind the question was so before.
* `spares_projectEntries`: the index of a project leaves the key of the focus alone.
-/

namespace YamlIndex

namespace Session

/-! ## Questions of actions -/

/-- A question that reads the cache. -/
inductive Question where
  | lines (source : Source)
  | entries (kind : EntryKind) (source : Source)

/-- The source that a question is about. -/
def Question.source : Question → Source
  | lines source => source
  | entries _ source => source

/-- The session after a question, which stays as it is when the question fails. -/
def asked (session : Session) : Question → Session
  | .lines source => session.after (session.lines source)
  | .entries kind source => session.after (session.entries kind source)

/-- The question that an action begins with. -/
def question? (session : Session) : Action → Option Question
  | .entries kind source => some (.entries kind source)
  | .keys source _ _ => some (.lines source)
  | .find source _ _ => some (.lines source)
  | .jumpTo kind source _ => some (.entries kind source)
  | .jumpBack source picker =>
    (session.recalled? picker).map fun target =>
      match target.kind with
      | .path => .lines source
      | .value => .entries .value source
  | _ => none

/-- The session when an action has asked its question. -/
def afterQuestion (session : Session) (action : Action) : Session :=
  match session.question? action with
  | none => session
  | some question => session.asked question

theorem extends_asked (session : Session) (question : Question) :
    Extends question.source.key session (session.asked question) := by
  cases question with
  | lines source =>
      rw [asked]
      cases hLines : session.lines source with
      | error error => exact Extends.refl _ _
      | ok result => exact extends_lines hLines
  | entries kind source =>
      rw [asked]
      cases hEntries : session.entries kind source with
      | error error => exact Extends.refl _ _
      | ok result => exact extends_entries hEntries

theorem afterQuestion_same (session : Session) (action : Action) :
    (session.afterQuestion action).editor = session.editor ∧
      (session.afterQuestion action).reader = session.reader := by
  rw [afterQuestion]
  cases session.question? action with
  | none => exact ⟨rfl, rfl⟩
  | some question =>
      have hExtends := extends_asked session question
      exact ⟨hExtends.editor, hExtends.reader⟩

/-- The question of a jump to an earlier target is where this target is. -/
theorem afterQuestion_jumpBack {session : Session} {picker : Picker} {target : Target}
    (hTarget : session.recalled? picker = some target) (source : Source) :
    session.afterQuestion (.jumpBack source picker) = session.lookedFor source target := by
  rw [afterQuestion, question?, hTarget, lookedFor_eq, Option.map_some]
  dsimp only
  cases target.kind <;> rfl

/-! ## Projects -/

/-- The second session is the first one with other records, none of them under the key. -/
structure Spares (key : String) (before after : Session) : Prop where
  reader : after.reader = before.reader
  records : ∀ slot, after.cache.record? slot key = before.cache.record? slot key

theorem Spares.refl (key : String) (session : Session) : Spares key session session :=
  ⟨rfl, fun _ => rfl⟩

theorem Spares.trans {key : String} {s t u : Session} (h : Spares key s t)
    (h' : Spares key t u) : Spares key s u :=
  ⟨h'.reader.trans h.reader, fun slot => (h'.records slot).trans (h.records slot)⟩

theorem Extends.spares {key other : String} {before after : Session}
    (h : Extends key before after) (hKey : other ≠ key) : Spares other before after :=
  ⟨h.reader, fun slot => h.others slot other hKey⟩

/-- The lines of a file of a project are remembered ones, or they are read and remembered from now
on. -/
theorem fileLines_cases {session opened : Session} {scanner : Project.Scanner}
    {location : Location} {lines : List String}
    (h : session.fileLines scanner location = some (lines, opened)) :
    (session.cache.get? .lines (scanner.metaOf location).path = some lines ∧ opened = session) ∨
      scanner.readLines location = .ok lines ∧
        opened = session.remember .lines (scanner.metaOf location).path lines := by
  rw [fileLines] at h
  split at h
  · rename_i found hGet
    cases h
    exact .inl ⟨hGet, rfl⟩
  · split at h
    · exact absurd h (by simp)
    · rename_i read hRead
      cases h
      exact .inr ⟨hRead, rfl⟩

theorem extends_fileLines {session opened : Session} {scanner : Project.Scanner}
    {location : Location} {lines : List String}
    (h : session.fileLines scanner location = some (lines, opened)) :
    Extends (scanner.metaOf location).path session opened := by
  rcases fileLines_cases h with ⟨-, rfl⟩ | ⟨-, rfl⟩
  · exact Extends.refl _ _
  · exact extends_remember _ _ _ _

/-- The entries of a file of a project are remembered ones, or they are made as ones of the file and
remembered from now on. -/
theorem fileEntries_cases (session : Session) (kind : EntryKind) (file : FileMeta)
    (lines : List String) :
    (∃ entries, session.cache.get? (.entries kind) file.path = some entries ∧
        session.fileEntries kind file lines = (entries, session)) ∨
      ∃ entries, session.cache.get? (.entries kind) file.path = none ∧
        entries = (entriesWith (session.tree file.path lines).1 lines kind).map
          (kind.within · file) ∧
        session.fileEntries kind file lines = (entries,
          (session.tree file.path lines).2.remember (.entries kind) file.path entries) := by
  rw [fileEntries]
  cases session.cache.get? (.entries kind) file.path with
  | some entries => exact .inl ⟨entries, rfl, rfl⟩
  | none => exact .inr ⟨_, rfl, rfl, rfl⟩

theorem extends_fileEntries (session : Session) (kind : EntryKind) (file : FileMeta)
    (lines : List String) : Extends file.path session (session.fileEntries kind file lines).2 := by
  rcases fileEntries_cases session kind file lines with ⟨_, -, hEq⟩ | ⟨_, -, -, hEq⟩
  · rw [hEq]
    exact Extends.refl _ _
  · rw [hEq]
    exact (extends_tree session file.path lines).trans (extends_remember _ _ _ _)

theorem spares_collect {key : String} (kind : EntryKind) (scanner : Project.Scanner)
    (locations : List Location) (session : Session)
    (hKey : ∀ location ∈ locations, key ≠ (scanner.metaOf location).path) :
    Spares key session (collect kind scanner locations session).2 := by
  induction locations generalizing session with
  | nil => exact Spares.refl key session
  | cons location rest ih =>
      have hRest : ∀ other ∈ rest, key ≠ (scanner.metaOf other).path :=
        fun other hOther => hKey other (List.mem_cons_of_mem _ hOther)
      have hHere := hKey location List.mem_cons_self
      rw [collect]
      cases hLines : session.fileLines scanner location with
      | none => exact ih session hRest
      | some result =>
          obtain ⟨lines, opened⟩ := result
          have hOpened := (extends_fileLines hLines).spares hHere
          have hEntries :=
            (extends_fileEntries opened kind (scanner.metaOf location) lines).spares hHere
          exact (hOpened.trans hEntries).trans (ih _ hRest)

/-- No file of a listing has the key of the focus for its path, since it has an extension. -/
theorem focusKey_ne_path {scanner : Project.Scanner} {listing : Volume.Listing}
    (hList : scanner.list = .ok listing) {location : Location}
    (hLocation : location ∈ listing.files) :
    Source.focusKey ≠ (scanner.metaOf location).path := by
  intro hEq
  have hDot := Project.Scanner.dot_mem_path_of_mem_list hList hLocation
  rw [← hEq] at hDot
  exact absurd hDot (by decide)

/-- The index of a project leaves the key of the focus alone. -/
theorem spares_projectEntries (session : Session) (kind : EntryKind)
    (scanner : Project.Scanner) :
    Spares Source.focusKey session (session.after (session.projectEntries kind scanner)) := by
  rw [projectEntries]
  cases hList : scanner.list with
  | error error => exact Spares.refl _ _
  | ok listing =>
      exact spares_collect kind scanner listing.files session fun _ => focusKey_ne_path hList

/-! ## Behind the question -/

theorem pick_same (session : Session) (kind : EntryKind) (source : Source)
    (entries : List kind.Entry) (picker : Picker) :
    (session.pick kind source entries picker).2.reader = session.reader ∧
      (session.pick kind source entries picker).2.cache = session.cache := by
  rcases pick_cases session kind source entries picker with hSame | ⟨entry, -, hLands⟩
  · rw [hSame]
    exact ⟨rfl, rfl⟩
  · exact ⟨hLands.reader, hLands.cache⟩

/-- Behind its question an action writes no record, unless it is one on a project. -/
theorem record?_of_afterQuestion (session : Session) {action : Action}
    (hProject : ∀ kind scanner, action ≠ .project kind scanner) :
    (session.perform action).reader = session.reader ∧
      ∀ slot key record, (session.perform action).cache.record? slot key = some record →
        (session.afterQuestion action).cache.record? slot key = some record := by
  have hReader := (afterQuestion_same session action).2
  cases action with
  | entries kind source => exact ⟨hReader, fun _ _ _ hRecord => hRecord⟩
  | keys source text limit =>
      rw [perform, after_keysStartingWith]
      exact ⟨hReader, fun _ _ _ hRecord => hRecord⟩
  | find source query limit =>
      rw [perform, after_find]
      exact ⟨hReader, fun _ _ _ hRecord => hRecord⟩
  | pick kind source entries picker =>
      obtain ⟨hSame, hCache⟩ := pick_same session kind source entries picker
      exact ⟨hSame, fun slot key record hRecord => hCache ▸ hRecord⟩
  | jumpTo kind source picker =>
      have hAsked : session.afterQuestion (.jumpTo kind source picker) =
          session.after (session.entries kind source) := rfl
      rw [hAsked] at hReader ⊢
      rcases jumpTo_cases session kind source picker with
        ⟨error, hEntries, hSame⟩ | ⟨entries, opened, hEntries, hPick⟩
      · rw [perform, hSame, hEntries]
        exact ⟨rfl, fun _ _ _ hRecord => hRecord⟩
      · obtain ⟨hSame, hCache⟩ := pick_same opened kind source entries picker
        rw [hEntries] at hReader ⊢
        rw [perform, hPick]
        exact ⟨hSame.trans hReader, fun slot key record hRecord => hCache ▸ hRecord⟩
  | jumpBack source picker =>
      rcases jumpBack_cases session source picker with
        ⟨hNone, hSame⟩ | ⟨target, hTarget, hCases⟩
      · have hAsked : session.afterQuestion (.jumpBack source picker) = session := by
          rw [afterQuestion, question?, hNone]
          rfl
        rw [perform, hSame, hAsked]
        exact ⟨rfl, fun _ _ _ hRecord => hRecord⟩
      · rw [afterQuestion_jumpBack hTarget] at hReader ⊢
        rw [perform]
        rcases hCases with hSame | hLands
        · rw [hSame]
          exact ⟨hReader, fun _ _ _ hRecord => hRecord⟩
        · refine ⟨hLands.reader.trans hReader, fun slot key record hRecord => ?_⟩
          rw [hLands.cache] at hRecord
          exact hRecord
  | edit source line ask =>
      rw [perform]
      rcases edit_cases session source line ask with hSame | ⟨new, editor, -, hEdit⟩
      · rw [hSame]
        exact ⟨rfl, fun _ _ _ hRecord => hRecord⟩
      · rw [hEdit]
        exact ⟨(forgetEdited_same { session with editor } source).2.2,
          fun slot key record hRecord => (record?_of_forgetEdited hRecord).1⟩
  | saved path => exact ⟨rfl, fun slot key record hRecord => (record?_of_fileSaved hRecord).1⟩
  | forget source =>
      refine ⟨(forget_same session source).2, fun slot key record hRecord => ?_⟩
      exact record?_of_forget hRecord
  | advance span =>
      refine ⟨rfl, fun slot key record hRecord => ?_⟩
      exact (Cache.record?_advance session.cache span slot key).symm.trans hRecord
  | project kind scanner => exact absurd rfl (hProject kind scanner)

/-- Behind its question an action writes no record under the key of the focus. -/
theorem record?_of_perform (session : Session) (action : Action) :
    (session.perform action).reader = session.reader ∧
      ∀ slot record, (session.perform action).cache.record? slot Source.focusKey = some record →
        (session.afterQuestion action).cache.record? slot Source.focusKey = some record := by
  by_cases hProject : ∃ kind scanner, action = .project kind scanner
  · obtain ⟨kind, scanner, rfl⟩ := hProject
    obtain ⟨hReader, hRecords⟩ := spares_projectEntries session kind scanner
    exact ⟨hReader, fun slot record hRecord => (hRecords slot).symm.trans hRecord⟩
  · obtain ⟨hReader, hRecords⟩ := record?_of_afterQuestion session fun kind scanner hIs =>
      hProject ⟨kind, scanner, hIs⟩
    exact ⟨hReader, fun slot => hRecords slot Source.focusKey⟩

end Session

end YamlIndex
