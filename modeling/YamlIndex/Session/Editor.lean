import YamlIndex.FilePath
import YamlIndex.Session.Source
import YamlIndex.Text.Lines
import YamlIndex.Text.Number
import YamlIndex.Volume

/-!
# The editor

An editor has a volume, at most one file in focus, a cursor where it was moved to last, and a list
of files that have been loaded without getting the focus.  Files are named by paths, which are
followed from the root of the volume whether they begin with slashes or not; two paths name the
same file for the editor when they have the same components.

## Main results

* `load_volume`, `moveTo_volume`: loading a file and moving the cursor write nothing.
-/

namespace YamlIndex

/-- The state of an editor. -/
structure Editor where
  volume : Volume
  /-- The path of the file that has the focus. -/
  current : Option String := none
  /-- The path and the line, counted from one, that the cursor was moved to last. -/
  cursor : Option (String × Nat) := none
  /-- The paths of the files that were loaded in the background, in the order of loading. -/
  loaded : List String := []
  deriving Repr

/-- What an editor cannot do. -/
inductive EditorError where
  | noFocus
  | noFile (path : String)
  | lineOutOfRange (source : Source) (line count : Nat)
  | volume (error : VolumeError)
  deriving DecidableEq, Repr

/-- What is said about an error. -/
def EditorError.message : EditorError → String
  | noFocus => "no buffer is open"
  | noFile path => path ++ " does not exist"
  | lineOutOfRange source line count =>
    "line " ++ Text.decimal line ++ " is out of range for " ++ source.text ++ " (" ++
      Text.decimal count ++ " lines)"
  | volume error => "vfs error: " ++ error.message

namespace Editor

/-- The path of the file that a source stands for. -/
def pathOf (editor : Editor) : Source → Except EditorError String
  | .focus =>
    match editor.current with
    | some path => .ok path
    | none => .error .noFocus
  | .file path => .ok path

/-- The location of the file with a path. -/
def locate (editor : Editor) (path : String) : Except EditorError Location :=
  match Volume.resolve [] (String.ofList (path.toList.dropWhile (· == '/'))) with
  | .error error => .error (.volume error)
  | .ok location =>
    if editor.volume.isFile location then .ok location else .error (.noFile path)

/-- The location of the file that a source stands for and the text of this file. -/
def openText (editor : Editor) (source : Source) : Except EditorError (Location × String) := do
  let location ← editor.locate (← editor.pathOf source)
  match editor.volume.readText location with
  | .error error => .error (.volume error)
  | .ok text => .ok (location, text)

/-- The lines of a source. -/
def readLines (editor : Editor) (source : Source) : Except EditorError (List String) :=
  (editor.openText source).map fun (_, text) => Text.linesOf text

/-- The editor after the body of a line has been exchanged in the file of a source. -/
def replaceLine (editor : Editor) (source : Source) (line : Nat) (new : String) :
    Except EditorError Editor := do
  let (location, text) ← editor.openText source
  match Text.replaceBody line new.toList text.toList with
  | none => .error (.lineOutOfRange source line (Text.pieces text.toList).length)
  | some changed =>
    .ok { editor with volume := editor.volume.write location (.text (String.ofList changed)) }

/-- Whether a path names the file that has the focus. -/
def isFocus (editor : Editor) (path : String) : Bool :=
  editor.current.any (FilePath.same path)

/-- Whether a file is at hand: in focus, or loaded before. -/
def hasOpen (editor : Editor) (path : String) : Bool :=
  editor.isFocus path || editor.loaded.any (FilePath.same path)

/-- The editor after the file of a source has been loaded in the background, unless it is at hand.
-/
def load (editor : Editor) (source : Source) : Except EditorError Editor := do
  let path ← editor.pathOf source
  let _ ← editor.locate path
  return if editor.hasOpen path then editor
    else { editor with loaded := editor.loaded ++ [path] }

/-- The editor after the focus and the cursor have been moved to a line of a source. -/
def moveTo (editor : Editor) (source : Source) (line : Nat) : Except EditorError Editor := do
  let loaded ← editor.load source
  let path ← editor.pathOf source
  return { loaded with current := some path, cursor := some (path, line) }

theorem load_volume {editor loaded : Editor} {source : Source}
    (h : editor.load source = .ok loaded) : loaded.volume = editor.volume := by
  simp only [load, bind, Except.bind, pure, Except.pure] at h
  split at h
  · exact absurd h (by simp)
  · split at h
    · exact absurd h (by simp)
    · split at h <;> (cases h; rfl)

theorem moveTo_volume {editor moved : Editor} {source : Source} {line : Nat}
    (h : editor.moveTo source line = .ok moved) : moved.volume = editor.volume := by
  simp only [moveTo, bind, Except.bind, pure, Except.pure] at h
  split at h
  · exact absurd h (by simp)
  · rename_i loaded hLoad
    split at h
    · exact absurd h (by simp)
    · cases h
      exact (load_volume hLoad : loaded.volume = editor.volume)

end Editor

end YamlIndex
