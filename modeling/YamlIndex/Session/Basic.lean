import YamlIndex.Association
import YamlIndex.Session.Cache
import YamlIndex.Session.Editor
import YamlIndex.Session.Ledger
import YamlIndex.Settings
import YamlIndex.Yaml.Value

/-!
# Sessions

A session answers questions about the sources of an editor, remembers what it has found, and keeps a
ledger of jumps.  Its state is a value: every operation returns its answer together with the session
after it, and one that fails on its first step returns no session, so the old one stands.

## Main results

* `cached_lines`: what is remembered is the answer, whatever the source holds by now.
-/

namespace YamlIndex

/-- The state of a session. -/
structure Session where
  editor : Editor
  cache : Cache
  ledger : Ledger := {}
  /-- Reads documents in full, if this is tried at all. -/
  reader : Option Reader := none

namespace Session

/-- A new session over an editor. -/
def start (editor : Editor) (settings : Settings) : Session where
  editor
  cache := { enabled := settings.remember, lifetime := 1000 * settings.lifetime }
  ledger := { bound := settings.maxJumps }
  reader := if settings.structured then some Yaml.read else none

/-- The session with a result remembered under a key. -/
def remember (session : Session) (slot : Slot) (key : String) (result : slot.Content) : Session :=
  { session with cache := session.cache.put slot key result }

/-! ## Questions about a source -/

/-- The lines of a source. -/
def lines (session : Session) (source : Source) : Except EditorError (List String × Session) :=
  match session.cache.get? .lines source.key with
  | some lines => .ok (lines, session)
  | none =>
    (session.editor.readLines source).map fun lines =>
      (lines, session.remember .lines source.key lines)

/-- The tree of the document with the given lines, if there is a reader and it succeeds. -/
def tree (session : Session) (key : String) (lines : List String) : Option Node × Session :=
  match session.reader with
  | none => (none, session)
  | some read =>
    match session.cache.get? .tree key with
    | some tree => (some tree, session)
    | none =>
      match read (Text.joinLines lines) with
      | none => (none, session)
      | some tree => (some tree, session.remember .tree key tree)

/-- The entries of one kind of the document with the given lines. -/
def extract (session : Session) (kind : EntryKind) (key : String) (lines : List String) :
    List kind.Entry × Session :=
  let (tree, session) := session.tree key lines
  (entriesWith tree lines kind, session)

/-- The entries of one kind of a source. -/
def entries (session : Session) (kind : EntryKind) (source : Source) :
    Except EditorError (List kind.Entry × Session) :=
  match session.cache.get? (.entries kind) source.key with
  | some entries => .ok (entries, session)
  | none => do
    let (lines, session) ← session.lines source
    let (entries, session) := session.extract kind source.key lines
    return (entries, session.remember (.entries kind) source.key entries)

/-- The paths of a source. -/
def paths (session : Session) (source : Source) : Except EditorError (List PathEntry × Session) :=
  session.entries .path source

/-- The values of a source. -/
def values (session : Session) (source : Source) :
    Except EditorError (List ValueEntry × Session) :=
  session.entries .value source

/-- The keys of a source that start with the given text. -/
def keysStartingWith (session : Session) (source : Source) (text : String) (limit : Option Nat) :
    Except EditorError (List PathEntry × Session) :=
  (session.lines source).map fun (lines, session) =>
    (YamlIndex.keysStartingWith text lines limit, session)

/-- The lines of a source at or below a dotted path. -/
def find (session : Session) (source : Source) (query : String) (limit : Option Nat) :
    Except EditorError (List PathEntry × Session) :=
  (session.lines source).map fun (lines, session) =>
    (findPath (Path.ofDotted query) lines limit, session)

/-! ## Forgetting -/

/-- The session after a file was written: nothing is remembered of it, nor of the focus if the file
has it. -/
def fileSaved (session : Session) (path : String) : Session :=
  let cache := session.cache.erase path
  { session with
    cache := if session.editor.isFocus path then cache.erase Source.focusKey else cache }

/-- The session without what is remembered of a source, or of any source. -/
def forget (session : Session) (source : Option Source) : Session :=
  match source with
  | some source => { session with cache := session.cache.erase source.key }
  | none => { session with cache := session.cache.clear }

/-- The session some milliseconds later. -/
def advance (session : Session) (span : Nat) : Session :=
  { session with cache := session.cache.advance span }

theorem cached_lines {session : Session} {source : Source} {lines : List String}
    (h : session.cache.get? .lines source.key = some lines) :
    session.lines source = .ok (lines, session) := by
  unfold Session.lines
  rw [h]

end Session

end YamlIndex
