import YamlIndex.Text.Blank

/-!
# What a single line says

The scanner looks at one line at a time.  All it knows about structure comes from the blanks in
front, an optional sequence marker and the first colon: a *mapping line* is `key: value`, an *item
line* is a dash followed by a blank or the end of the line, perhaps with a key of its own behind
it.  Anything else carries no structure.

Columns count characters.  A key is what stands before the first colon, without blanks and without
quotes around it; a value is what stands after it, absent when empty or a comment.

## Main results

* `isStructural_of_key`: only mapping lines and item lines carry a key.
-/

namespace YamlIndex

/-- A line that opens with a key. -/
structure MappingLine where
  /-- The column of the key. -/
  indent : Nat
  key : String
  /-- The text behind the colon; absent when the value is nested below. -/
  value : Option String
  deriving DecidableEq, Repr

/-- A line that opens with a sequence marker. -/
structure ItemLine where
  /-- The column of the marker. -/
  indent : Nat
  /-- The key behind the marker, if there is one. -/
  key : Option String
  /-- The column behind the marker and its blanks. -/
  keyIndent : Nat
  value : Option String
  deriving DecidableEq, Repr

/-- The structure that a line carries. -/
inductive Line where
  /-- Empty, or a comment. -/
  | blank
  /-- Neither a key nor a marker: a continuation, the body of a block of text, … -/
  | unparsed
  | mapping (line : MappingLine)
  | item (line : ItemLine)
  deriving DecidableEq, Repr

namespace Line

/-! ## Parts of a line -/

/-- The number of blanks in front. -/
def indentOf (s : List Char) : Nat :=
  (s.takeWhile Text.isBlank).length

/-- Whether nothing follows the blanks in front, or a comment does. -/
def isBlankOrComment (s : List Char) : Bool :=
  match Text.trimStart s with
  | [] => true
  | c :: _ => c == '#'

/-- What follows a sequence marker that opens the text: a dash before a blank or the end. -/
def afterMarker? : List Char → Option (List Char)
  | '-' :: rest =>
    match rest with
    | [] => some []
    | c :: _ => if Text.isBlank c then some rest else none
  | _ => none

/-- The key without the quotes around it: first all double ones, then all single ones. -/
def unquote (s : List Char) : List Char :=
  Text.stripBoth (· == '\'') (Text.stripBoth (· == '"') s)

/-- The value that a text stands for: none when it is empty or a comment. -/
def value? (s : List Char) : Option String :=
  match Text.trim s with
  | [] => none
  | '#' :: _ => none
  | v => some (String.ofList v)

/-- The key before the first colon and the value behind it; none when there is no colon or nothing
is left of the key. -/
def keyAndValue? (s : List Char) : Option (String × Option String) := do
  let (before, after) ← Text.splitFirst ':' s
  let key := unquote (Text.trim before)
  if key.isEmpty then none else some (String.ofList key, value? after)

/-! ## Classification -/

/-- An item line with its marker at the given column and the given text behind the marker. -/
def itemOf (indent : Nat) (after : List Char) : ItemLine :=
  let item := Text.trimStart after
  let keyIndent := indent + 1 + (after.length - item.length)
  match keyAndValue? item with
  | some (key, value) => ⟨indent, some key, keyIndent, value⟩
  | none => ⟨indent, none, keyIndent, value? item⟩

/-- The structure that a text carries. -/
def ofChars (s : List Char) : Line :=
  if isBlankOrComment s then blank
  else
    let indent := indentOf s
    let rest := Text.trimStart s
    match afterMarker? rest with
    | some after => item (itemOf indent after)
    | none =>
      match keyAndValue? rest with
      | some (key, value) => mapping ⟨indent, key, value⟩
      | none => unparsed

/-- The structure that a line carries. -/
def classify (line : String) : Line :=
  ofChars line.toList

/-- The key on the line, in front or behind the marker. -/
def key? : Line → Option String
  | blank => none
  | unparsed => none
  | mapping line => some line.key
  | item line => line.key

/-- Whether the line is a mapping line or an item line. -/
def isStructural : Line → Bool
  | blank => false
  | unparsed => false
  | mapping _ => true
  | item _ => true

/-! ## Cutting a line for a new value -/

/-- The line up to and including the colon of its key, and the text behind it without the blanks
around; none when no key can be found behind the optional marker.  Whether the line is a comment is
not asked. -/
def assignmentOf (s : List Char) : Option (List Char × List Char) := do
  let rest := Text.trimStart s
  let body := match afterMarker? rest with
    | some after => Text.trimStart after
    | none => rest
  let _ ← keyAndValue? body
  let (key, value) ← Text.splitFirst ':' body
  return (s.take (s.length - body.length) ++ key ++ [':'], Text.trim value)

/-- As `assignmentOf`, on strings. -/
def assignment? (line : String) : Option (String × String) :=
  (assignmentOf line.toList).map fun (head, value) => (String.ofList head, String.ofList value)

theorem isStructural_of_key {line : Line} {key : String} (h : line.key? = some key) :
    line.isStructural = true := by
  cases line <;> simp_all [key?, isStructural]

end Line

end YamlIndex
