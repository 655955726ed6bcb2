import YamlIndex.Entry
import YamlIndex.Json
import YamlIndex.Session.Picker

/-!
# Reports

Entries are reported as lines of columns with tabs between them, or as JSON.  A line starts with the
place of its entry, so that it can be cut and sorted by other tools.
-/

namespace YamlIndex.CommandLine

/-- What an entry says about its file. -/
def jsonOfFile (file : FileMeta) : Json :=
  .object
    [("file_path", .text file.path), ("file_name", .text file.name),
      ("relative_path", .text file.relative)]

/-- A member that is left out when there is nothing to say. -/
def optionalMember {α : Type} (name : String) (toJson : α → Json) (value? : Option α) :
    List (String × Json) :=
  value?.toList.map fun value => (name, toJson value)

/-- An entry as JSON. -/
def jsonOfPath (entry : PathEntry) : Json :=
  .object
    ([("line", .number entry.line), ("key", .text entry.key), ("text", .text entry.text),
      ("path", .text entry.path.dotted), ("is_array", .bool entry.isItem)] ++
      optionalMember "array_index" Json.number entry.position ++
      optionalMember "file" jsonOfFile entry.file)

/-- An entry as JSON. -/
def jsonOfValue (entry : ValueEntry) : Json :=
  .object
    ([("line", .number entry.line), ("key", .text entry.key), ("path", .text entry.path.dotted),
      ("value", .text entry.value), ("text", .text entry.text)] ++
      optionalMember "file" jsonOfFile entry.file)

/-- Entries as JSON. -/
def jsonOfEntries : (kind : EntryKind) → List kind.Entry → Json
  | .path, entries => .list (entries.map jsonOfPath)
  | .value, entries => .list (entries.map jsonOfValue)

/-- The columns of an entry. -/
def columns : (kind : EntryKind) → kind.Entry → List String
  | .path, entry => [Choice.place entry.file entry.line, entry.path.dotted]
  | .value, entry => [Choice.place entry.file entry.line, entry.path.dotted, entry.value]

/-- Entries as lines of columns. -/
def rows (kind : EntryKind) (entries : List kind.Entry) : String :=
  String.join (entries.map fun entry => String.intercalate "\t" (columns kind entry) ++ "\n")

/-- A report of entries. -/
def reportEntries (json : Bool) (kind : EntryKind) (entries : List kind.Entry) : String :=
  if json then (jsonOfEntries kind entries).document else rows kind entries

/-- A report of an edit. -/
def reportEdit (json : Bool) (line : Nat) (changed : Bool) : String :=
  if json then (Json.object [("changed", .bool changed), ("line", .number line)]).document
  else if changed then "changed\n"
  else "unchanged\n"

end YamlIndex.CommandLine
