import YamlIndex.Text.Lowercase
import YamlIndex.Text.Quoted

/-!
# Formats of the log

The log is written as JSON or for people, at length or in short.  The formats have names, of which
the case does not matter.

## Main results

* `ofLower?_name`: every format is read back from its name.
-/

namespace YamlIndex

/-- How a log is written. -/
inductive LogFormat where
  | json
  | pretty
  | compact
  deriving DecidableEq, Repr

namespace LogFormat

/-- The name of a format. -/
def name : LogFormat → String
  | json => "json"
  | pretty => "pretty"
  | compact => "pretty-compact"

/-- The format of the given name in lower case. -/
def ofLower? : String → Option LogFormat
  | "json" => some json
  | "pretty" => some pretty
  | "pretty-compact" => some compact
  | "compact" => some compact
  | _ => none

/-- The format of the given name; a name that has none is returned in lower case. -/
def ofText (text : String) : Except String LogFormat :=
  match ofLower? (Text.asciiLowered text) with
  | some format => .ok format
  | none => .error (Text.asciiLowered text)

/-- What is said about a name that has no format. -/
def unknownMessage (name : String) : String :=
  "unknown log format " ++ Text.quoted name ++ ", expected json, pretty or pretty-compact"

theorem ofLower?_name (format : LogFormat) : ofLower? format.name = some format := by
  cases format <;> rfl

end LogFormat

end YamlIndex
