import YamlIndex.Proofs.OtherFiles
import YamlIndex.Proofs.Session.Questions
import YamlIndex.Proofs.Volume.WellFormed

/-!
# Volumes that occur

The trees of volumes are well-formed by the way they come about.  A volume is made from an empty one
by writing files, making directories and removing them at locations that paths lead to, and a path
leads through names only.  A session writes to its volume when a value is edited and at no other
time, and then to a file that is there.

## Main results

* `Volume.IsMade.isWellFormed`: a volume that is made step by step is well-formed.
* `Session.editor_of_perform`: what an action does to the editor; only an edit writes.
* `Session.isWellFormed_foldl_perform`: a session keeps its volume well-formed.
-/

namespace YamlIndex

namespace Volume

/-- A path that is resolved from names leads to names. -/
theorem isName_of_resolve {start location : Location} {path : String}
    (hStart : ∀ name ∈ start, IsName name) (h : resolve start path = .ok location) :
    ∀ name ∈ location, IsName name := by
  rw [resolve] at h
  cases hFollow : start.follow? path with
  | none =>
      rw [hFollow] at h
      exact absurd h (by simp)
  | some found =>
      rw [hFollow] at h
      cases h
      exact Location.isName_of_follow? hStart hFollow

/-- The volumes that are made step by step, at locations that paths lead to from the root. -/
inductive IsMade : Volume → Prop where
  | empty (locked : List String) : IsMade { locked }
  | write {volume : Volume} {path : String} {location : Location} (hVolume : IsMade volume)
      (hPath : resolve [] path = .ok location) (contents : Contents) :
      IsMade (volume.write location contents)
  | makeDirectory {volume : Volume} {path : String} {location : Location}
      (hVolume : IsMade volume) (hPath : resolve [] path = .ok location) :
      IsMade (volume.makeDirectory location)
  | remove {volume : Volume} (hVolume : IsMade volume) (location : Location) :
      IsMade (volume.remove location)

/-- A volume that is made step by step is well-formed. -/
theorem IsMade.isWellFormed {volume : Volume} (h : IsMade volume) : volume.tree.IsWellFormed := by
  induction h with
  | empty locked => exact .empty
  | write hVolume hPath contents ih => exact ih.write (isName_of_resolve (by simp) hPath) contents
  | makeDirectory hVolume hPath ih => exact ih.makeDirectory (isName_of_resolve (by simp) hPath)
  | remove hVolume location ih => exact ih.remove location

end Volume

namespace Editor

/-- Exchanging a line keeps the volume well-formed. -/
theorem isWellFormed_replaceLine {editor changed : Editor} {source : Source} {line : Nat}
    {new : String} (hTree : editor.volume.tree.IsWellFormed)
    (h : editor.replaceLine source line new = .ok changed) :
    changed.volume.tree.IsWellFormed := by
  obtain ⟨path, location, old, text, -, hLocation, -, rfl⟩ := exists_of_replaceLine h
  exact hTree.write (Volume.isName_of_resolve (by simp) hLocation) (.text text)

end Editor

namespace Session

theorem editor_collect (kind : EntryKind) (scanner : Project.Scanner) (locations : List Location)
    (session : Session) : (collect kind scanner locations session).2.editor = session.editor := by
  induction locations generalizing session with
  | nil => rfl
  | cons location rest ih =>
      rw [collect]
      cases hLines : session.fileLines scanner location with
      | none => exact ih session
      | some result =>
          obtain ⟨lines, opened⟩ := result
          have hEntries := (extends_fileEntries opened kind (scanner.metaOf location) lines).editor
          exact (ih _).trans (hEntries.trans (extends_fileLines hLines).editor)

theorem editor_of_pick (session : Session) (kind : EntryKind) (source : Source)
    (entries : List kind.Entry) (picker : Picker) :
    (session.pick kind source entries picker).2.editor = session.editor ∨
      ∃ target line, session.editor.moveTo target line =
        .ok (session.pick kind source entries picker).2.editor := by
  rcases pick_cases session kind source entries picker with
    hSame | ⟨entry, -, line, editor, target, hMove, hAfter⟩
  · rw [hSame]
    exact .inl rfl
  · rw [hAfter]
    exact .inr ⟨_, line, hMove⟩

/-- An action leaves the editor as it is, moves its cursor, or exchanges a line of a file. -/
theorem editor_of_perform (session : Session) (action : Action) :
    (session.perform action).editor = session.editor ∨
      (∃ source line, session.editor.moveTo source line = .ok (session.perform action).editor) ∨
        ∃ source line new,
          session.editor.replaceLine source line new = .ok (session.perform action).editor := by
  have hAsked := (afterQuestion_same session action).1
  cases action with
  | entries kind source => exact .inl hAsked
  | keys source text limit =>
      rw [perform, after_keysStartingWith]
      exact .inl hAsked
  | find source query limit =>
      rw [perform, after_find]
      exact .inl hAsked
  | pick kind source entries picker =>
      rw [perform]
      rcases editor_of_pick session kind source entries picker with hSame | hMove
      · exact .inl hSame
      · exact .inr (.inl hMove)
  | jumpTo kind source picker =>
      rw [perform]
      rcases jumpTo_cases session kind source picker with
        ⟨error, -, hSame⟩ | ⟨entries, asked, hEntries, hPick⟩
      · rw [hSame]
        exact .inl rfl
      · rw [hPick, ← (extends_entries hEntries).editor]
        rcases editor_of_pick asked kind source entries picker with hSame | hMove
        · exact .inl hSame
        · exact .inr (.inl hMove)
  | jumpBack source picker =>
      rw [perform]
      rcases jumpBack_cases session source picker with
        ⟨-, hSame⟩ | ⟨target, hTarget, hCases⟩
      · rw [hSame]
        exact .inl rfl
      · rw [afterQuestion_jumpBack hTarget] at hAsked
        rcases hCases with hSame | ⟨line, editor, _, hMove, hAfter⟩
        · rw [hSame]
          exact .inl hAsked
        · rw [hAfter, ← hAsked]
          exact .inr (.inl ⟨source, line, hMove⟩)
  | edit source line ask =>
      rw [perform]
      rcases edit_cases session source line ask with hSame | ⟨new, editor, hReplace, hEdit⟩
      · rw [hSame]
        exact .inl rfl
      · rw [hEdit, (forgetEdited_same { session with editor } source).1]
        exact .inr (.inr ⟨source, line, new, hReplace⟩)
  | saved path => exact .inl rfl
  | forget source => exact .inl (forget_same session source).1
  | advance span => exact .inl rfl
  | project kind scanner =>
      rw [perform, projectEntries]
      cases scanner.list with
      | error error => exact .inl rfl
      | ok listing => exact .inl (editor_collect kind scanner listing.files session)

/-- A session keeps its volume well-formed, whatever is done to it. -/
theorem isWellFormed_foldl_perform {session : Session} (h : session.editor.volume.tree.IsWellFormed)
    (actions : List Action) :
    (actions.foldl perform session).editor.volume.tree.IsWellFormed := by
  induction actions generalizing session with
  | nil => exact h
  | cons action actions ih =>
      refine ih ?_
      rcases editor_of_perform session action with
        hSame | ⟨source, line, hMove⟩ | ⟨source, line, new, hReplace⟩
      · rwa [hSame]
      · rwa [Editor.moveTo_volume hMove]
      · exact Editor.isWellFormed_replaceLine h hReplace

end Session

end YamlIndex
