import YamlIndex.Text.Blank

/-!
# Paths of files

A file path is text; its meaning is its list of components.  Doubled and trailing slashes and inner
dots carry no meaning, a leading slash and a leading dot do.  Names are compared by components, but
a path is kept and cut as the text it is, so what is left of it after a cut reads as it was
written.
-/

namespace YamlIndex.FilePath

/-- A step of a file path. -/
inductive Component where
  | root
  /-- A leading dot. -/
  | here
  | up
  | name (text : List Char)
  deriving DecidableEq, Repr

/-- A piece of text between slashes with the component it stands for, if any. -/
abbrev Piece := Option Component × List Char

/-- The piece for the text between two slashes. -/
def innerPiece (s : List Char) : Piece :=
  if s.isEmpty || s == ['.'] then (none, s)
  else if s == ['.', '.'] then (some .up, s)
  else (some (.name s), s)

/-- The pieces of a relative path; a dot in front is a component there. -/
def relativePieces (s : List Char) : List Piece :=
  match Text.splitAll '/' s with
  | ['.'] :: rest => (some .here, ['.']) :: rest.map innerPiece
  | all => all.map innerPiece

/-- The pieces of a path, with a leading slash as a piece of its own. -/
def pieces : List Char → List Piece
  | '/' :: rest => (some .root, []) :: (Text.splitAll '/' rest).map innerPiece
  | s => relativePieces s

/-- The components of a path. -/
def components (s : List Char) : List Component :=
  (pieces s).filterMap Prod.fst

/-- Whether two paths have the same components. -/
def same (path other : String) : Bool :=
  components path.toList == components other.toList

/-- The last component of a path when it is a name. -/
def fileName? (path : String) : Option String :=
  match (components path.toList).getLast? with
  | some (.name text) => some (String.ofList text)
  | _ => none

/-- Whether a piece carries no meaning. -/
def isIdle (piece : Piece) : Bool :=
  piece.1.isNone

/-- The text of a run of pieces, with slashes between them and one in front for the root. -/
def textOf : List Piece → List Char
  | (some .root, _) :: run => '/' :: List.intercalate ['/'] (run.map Prod.snd)
  | run => List.intercalate ['/'] (run.map Prod.snd)

/-- What is left of the pieces once the given components have been met at their front. -/
def afterComponents : List Component → List Piece → Option (List Piece)
  | [], run => some run
  | _ :: _, [] => none
  | c :: cs, (none, _) :: run => afterComponents (c :: cs) run
  | c :: cs, (some d, _) :: run => if c = d then afterComponents cs run else none

/-- The run without the idle pieces at its end. -/
def trimIdleEnd (run : List Piece) : List Piece :=
  (run.reverse.dropWhile isIdle).reverse

/-- The text of a path below a directory; none when the path is not below it. -/
def relativeTo? (base path : String) : Option String :=
  match components base.toList with
  | [] => some (String.ofList (textOf (trimIdleEnd (pieces path.toList))))
  | cs =>
    (afterComponents cs (pieces path.toList)).map fun run =>
      String.ofList (textOf ((trimIdleEnd run).dropWhile isIdle))

/-- The second path as seen from the first, which is a directory. -/
def join (base path : String) : String :=
  if path.toList.head? = some '/' then path
  else if base.toList.getLast?.all (· == '/') then base ++ path
  else base ++ "/" ++ path

/-- The text behind the last dot of a name, if a dot stands behind its first character. -/
def extension? (path : String) : Option String := do
  let name ← fileName? path
  let (tail, head) := name.toList.reverse.span (· != '.')
  match head with
  | _ :: _ :: _ => some (String.ofList tail.reverse)
  | _ => none

end YamlIndex.FilePath
