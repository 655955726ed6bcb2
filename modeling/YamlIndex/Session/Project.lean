import YamlIndex.Project.Scanner
import YamlIndex.Session.Basic

/-!
# A project within a session

A session can ask for the entries of all files of a project at once.  What it finds in a file it
remembers under the path of the file, as it does for a single source; entries found here also say
which file they are from.
-/

namespace YamlIndex.Session

open Project (Scanner)

/-- The lines of a file of a project; none when it cannot be read. -/
def fileLines (session : Session) (scanner : Scanner) (location : Location) :
    Option (List String × Session) :=
  let key := (scanner.metaOf location).path
  match session.cache.get? .lines key with
  | some lines => some (lines, session)
  | none =>
    match scanner.readLines location with
    | .error _ => none
    | .ok lines => some (lines, session.remember .lines key lines)

/-- The entries of one kind of a file of a project. -/
def fileEntries (session : Session) (kind : EntryKind) (file : FileMeta) (lines : List String) :
    List kind.Entry × Session :=
  match session.cache.get? (.entries kind) file.path with
  | some entries => (entries, session)
  | none =>
    let (entries, session) := session.extract kind file.path lines
    let entries := entries.map fun entry => kind.within entry file
    (entries, session.remember (.entries kind) file.path entries)

/-- The entries of one kind of the files at the given locations; files that cannot be read are
skipped. -/
def collect (kind : EntryKind) (scanner : Scanner) :
    List Location → Session → List kind.Entry × Session
  | [], session => ([], session)
  | location :: rest, session =>
    match session.fileLines scanner location with
    | none => collect kind scanner rest session
    | some (lines, session) =>
      let (entries, session) := session.fileEntries kind (scanner.metaOf location) lines
      let (more, session) := collect kind scanner rest session
      (entries ++ more, session)

/-- The entries of one kind of a project. -/
def projectEntries (session : Session) (kind : EntryKind) (scanner : Scanner) :
    Except ScanError (List kind.Entry × Session) :=
  scanner.list.map fun listing => collect kind scanner listing.files session

end YamlIndex.Session
