import YamlIndex.FilePath
import YamlIndex.Path

/-!
# Entries of an index

An index of a document holds two kinds of entry: a *path entry* for each node that a line
introduces, and a *value entry* for each key that has its value on its own line.  In an index of
many files an entry also says which file it is from.

## Main results

* `EntryKind.file_within`: an entry of a file says so.
-/

namespace YamlIndex

/-- The file an entry was found in. -/
structure FileMeta where
  path : String
  name : String
  /-- The path as seen from the base directory; the whole path for a file outside it. -/
  relative : String
  deriving DecidableEq, Repr

namespace FileMeta

/-- The file at a path, as seen from a base directory. -/
def ofPath (base path : String) : FileMeta where
  path := path
  name := (FilePath.fileName? path).getD ""
  relative := (FilePath.relativeTo? base path).getD path

end FileMeta

/-- A node of a document and the line that introduces it. -/
structure PathEntry where
  /-- Counted from one. -/
  line : Nat
  /-- The key on the line, or the position in brackets for an item without one. -/
  key : String
  /-- The line without the blanks around it. -/
  text : String
  path : Path
  /-- Whether the node is an element of a sequence, or an inline key of one. -/
  isItem : Bool
  position : Option Nat
  file : Option FileMeta := none
  deriving DecidableEq, Repr

/-- A key with its value on its own line. -/
structure ValueEntry where
  /-- Counted from one. -/
  line : Nat
  key : String
  path : Path
  value : String
  /-- The line without the blanks around it. -/
  text : String
  file : Option FileMeta := none
  deriving DecidableEq, Repr

/-! ## Both kinds alike -/

/-- The kinds of entries. -/
inductive EntryKind where
  | path
  | value
  deriving DecidableEq, Repr

namespace EntryKind

/-- The entries of a kind. -/
abbrev Entry : EntryKind → Type
  | path => PathEntry
  | value => ValueEntry

/-- The name of a kind. -/
def text : EntryKind → String
  | path => "path"
  | value => "value"

end EntryKind

/-- The entry as one of the given file. -/
def PathEntry.within (entry : PathEntry) (file : FileMeta) : PathEntry :=
  { entry with file := some file }

/-- The entry as one of the given file. -/
def ValueEntry.within (entry : ValueEntry) (file : FileMeta) : ValueEntry :=
  { entry with file := some file }

/-- The text that names what an entry leads to: its dotted path, or its value. -/
def EntryKind.target : (kind : EntryKind) → kind.Entry → String
  | path, entry => entry.path.dotted
  | value, entry => entry.value

/-- The line of an entry. -/
def EntryKind.line : (kind : EntryKind) → kind.Entry → Nat
  | path, entry => entry.line
  | value, entry => entry.line

/-- The file of an entry. -/
def EntryKind.file : (kind : EntryKind) → kind.Entry → Option FileMeta
  | path, entry => entry.file
  | value, entry => entry.file

/-- The entry as one of the given file. -/
def EntryKind.within : (kind : EntryKind) → kind.Entry → FileMeta → kind.Entry
  | path, entry, file => entry.within file
  | value, entry, file => entry.within file

theorem EntryKind.file_within (kind : EntryKind) (entry : kind.Entry) (file : FileMeta) :
    kind.file (kind.within entry file) = some file := by
  cases kind <;> rfl

end YamlIndex
