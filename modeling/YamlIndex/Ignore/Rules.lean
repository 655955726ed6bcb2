import YamlIndex.Ignore.Glob
import YamlIndex.Text.Lines
import YamlIndex.Volume.Location

/-!
# Files that say what to ignore

A file of rules has a rule on each line.  A rule is a pattern for paths below the directory of the
file, and ignores what matches it, or readmits it when an exclamation mark stands in front.  A slash
in front ties the pattern to the directory itself, one at the end restricts it to directories, and a
pattern without any slash applies at every depth.

Of several rules that match, the last one decides.  A path that no rule matches goes with the
closest directory above it that some rule matches.
-/

namespace YamlIndex

/-- A rule of a file that says what to ignore. -/
structure IgnoreRule where
  /-- Whether what matches is readmitted and not ignored. -/
  readmits : Bool
  directoriesOnly : Bool
  glob : Glob
  deriving Repr

/-- What a file of rules says of a path. -/
inductive Verdict where
  | ignored
  | readmitted
  deriving DecidableEq, Repr

namespace IgnoreRule

/-- The line without its trailing blanks; one that ends in an escaped blank is kept. -/
def significant (line : List Char) : List Char :=
  match line.reverse with
  | ' ' :: '\\' :: _ => line
  | _ => Text.trimEnd line

/-- The marks in front of a pattern, taken off: whether it readmits, whether it is tied to the
directory of the file, and the pattern. -/
def takeMarks : List Char → Bool × Bool × List Char
  | '\\' :: '!' :: rest => (false, false, '!' :: rest)
  | '\\' :: '#' :: rest => (false, false, '#' :: rest)
  | '!' :: '/' :: rest => (true, true, rest)
  | '!' :: rest => (true, false, rest)
  | '/' :: rest => (false, true, rest)
  | pattern => (false, false, pattern)

/-- A slash at the end, taken off together with a backslash in front of it: whether there was one,
and the pattern. -/
def takeSlash (pattern : List Char) : Bool × List Char :=
  match pattern.reverse with
  | '/' :: '\\' :: rest => (true, rest.reverse)
  | '/' :: rest => (true, rest.reverse)
  | _ => (false, pattern)

/-- Whether a pattern applies at every depth by what it begins with. -/
def startsAnywhere : List Char → Bool
  | ['*', '*'] => true
  | '*' :: '*' :: '/' :: _ => true
  | _ => false

/-- Whether a pattern ends in a slash and a double star. -/
def endsBelow (pattern : List Char) : Bool :=
  match pattern.reverse with
  | '*' :: '*' :: '/' :: _ => true
  | _ => false

/-- The full form of a pattern: one that applies at every depth says so in front, and one for all
that is below a directory asks for a name there. -/
def complete (isTied : Bool) (pattern : List Char) : List Char :=
  let full :=
    if isTied || pattern.contains '/' || startsAnywhere pattern then pattern
    else '*' :: '*' :: '/' :: pattern
  if endsBelow full then full ++ ['/', '*'] else full

/-- The rule on a line; none for an empty line, a comment or a malformed pattern. -/
def ofLine? (line : List Char) : Option IgnoreRule :=
  if line.head? = some '#' then none
  else
    match significant line with
    | [] => none
    | marked =>
      let (readmits, isTied, rest) := takeMarks marked
      let (directoriesOnly, pattern) := takeSlash rest
      (Glob.ofText? (complete isTied pattern)).map fun glob => { readmits, directoriesOnly, glob }

/-- What the rule makes of what it matches. -/
def outcome (rule : IgnoreRule) : Verdict :=
  if rule.readmits then .readmitted else .ignored

/-- Whether the rule matches the encoding of a path. -/
def doesMatch (rule : IgnoreRule) (path : List UInt8) (isDirectory : Bool) : Bool :=
  (isDirectory || !rule.directoriesOnly) && rule.glob.doesMatch path

end IgnoreRule

/-- The rules of a file, in the order of its lines. -/
abbrev IgnoreRules := List IgnoreRule

namespace IgnoreRules

/-- The rules of a text. -/
def ofText (text : String) : IgnoreRules :=
  (Text.lines text.toList).filterMap IgnoreRule.ofLine?

/-- The encoding of a path given by its names. -/
def encodePath (names : List String) : List UInt8 :=
  Glob.encode (List.intercalate ['/'] (names.map String.toList))

/-- What the rules say of a path taken by itself. -/
def verdictAt (rules : IgnoreRules) (names : List String) (isDirectory : Bool) : Option Verdict :=
  let path := encodePath names
  (rules.reverse.find? fun rule => rule.doesMatch path isDirectory).map IgnoreRule.outcome

/-- What the rules say of a path below their directory. -/
def verdict (rules : IgnoreRules) (names : List String) (isDirectory : Bool) : Option Verdict :=
  (verdictAt rules names isDirectory).or
    ((Location.above names).findSome? fun directory => verdictAt rules directory true)

end IgnoreRules

end YamlIndex
