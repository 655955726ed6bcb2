import YamlIndex.Text.Number

/-!
# A place in the text of a document

Reading a document is moving a cursor through its text.  The cursor counts lines and columns, for
the indentation decides the structure, and octets, for a key must not be longer than 1024.

Five characters and one pair end a line here, more than elsewhere in the library: line feed,
carriage return, the pair of both, next line, line separator and paragraph separator.  Within a
scalar the first four read as a line feed, the separators as themselves.

A *gap* is a run of blanks and line ends inside a scalar.  On one line it is kept as it is; across
lines it folds into a space or into the empty lines it holds.
-/

namespace YamlIndex.Yaml

/-! ## Characters -/

/-- Whether a character ends a line. -/
def isBreak (c : Char) : Bool :=
  c == '\n' || c == '\r' || c.toNat == 0x85 || c.toNat == 0x2028 || c.toNat == 0x2029

/-- Whether a character is a space or a tab. -/
def isSpace (c : Char) : Bool :=
  c == ' ' || c == '\t'

/-- The mark of the order of octets, which says nothing here. -/
def orderMark : Char := Char.ofNat 0xfeff

/-- Whether a text is at its end, at a line end or at a space or a tab. -/
def blankAhead : List Char → Bool
  | [] => true
  | c :: _ => isSpace c || isBreak c

/-- Whether a text is at its end or at a line end. -/
def breakAhead : List Char → Bool
  | [] => true
  | c :: _ => isBreak c

/-- What a character that ends a line reads as within a scalar. -/
def breakText (c : Char) : Char :=
  if c.toNat == 0x2028 || c.toNat == 0x2029 then c else '\n'

/-- Letters, digits, the underscore and the hyphen make names. -/
def isNameChar (c : Char) : Bool :=
  ('a' ≤ c && c ≤ 'z') || ('A' ≤ c && c ≤ 'Z') || Text.isDigit c || c == '_' || c == '-'

/-- Whether a character may stand in a document at all. -/
def isAllowed (c : Char) : Bool :=
  let n := c.toNat
  n == 0x9 || n == 0xa || n == 0xd || (0x20 ≤ n && n ≤ 0x7e) || n == 0x85 ||
    (0xa0 ≤ n && n ≤ 0xfffd) || 0x10000 ≤ n

/-! ## The cursor -/

/-- A place in a text. -/
structure Cursor where
  /-- The text from here on. -/
  rest : List Char
  /-- The number of characters of the whole text: a bound on the steps of any reader. -/
  size : Nat
  /-- The number of octets before. -/
  index : Nat := 0
  line : Nat := 0
  column : Nat := 0
  deriving Repr

namespace Cursor

/-- The number of octets that the encoding of a text has. -/
def octetCount (s : List Char) : Nat :=
  s.foldl (fun n c => n + c.utf8Size) 0

/-- The start of a text. -/
def start (text : List Char) : Cursor where
  rest := text
  size := text.length

/-- Moves over the characters of `run` on the same line, behind which `rest` follows. -/
def past (cursor : Cursor) (run rest : List Char) : Cursor :=
  { cursor with
    rest, index := cursor.index + octetCount run, column := cursor.column + run.length }

/-- Moves over a number of characters of the same line, as many as there are at least. -/
def skip (cursor : Cursor) (count : Nat) : Cursor :=
  cursor.past (cursor.rest.take count) (cursor.rest.drop count)

/-- Moves over a line end, behind which `rest` follows. -/
def newLine (cursor : Cursor) (lineEnd rest : List Char) : Cursor :=
  { cursor with
    rest, index := cursor.index + octetCount lineEnd, line := cursor.line + 1, column := 0 }

/-- Moves over the characters of the same line that have a property, and gives them. -/
def span (cursor : Cursor) (p : Char → Bool) : List Char × Cursor :=
  let (run, rest) := cursor.rest.span p
  (run, cursor.past run rest)

/-- Moves over the spaces and tabs ahead. -/
def skipSpaces (cursor : Cursor) : Cursor :=
  (cursor.span isSpace).2

/-- Moves over a comment ahead, up to the end of its line. -/
def skipComment (cursor : Cursor) : Cursor :=
  match cursor.rest with
  | '#' :: _ => (cursor.span fun c => !isBreak c).2
  | _ => cursor

/-- Reads the line end ahead: what it reads as in a scalar, and the place behind it.  At the end of
the text there is nothing to read. -/
def readBreak (cursor : Cursor) : List Char × Cursor :=
  match cursor.rest with
  | '\r' :: '\n' :: rest => (['\n'], cursor.newLine ['\r', '\n'] rest)
  | c :: rest => if isBreak c then ([breakText c], cursor.newLine [c] rest) else ([], cursor)
  | [] => ([], cursor)

/-- Whether the text ahead is three times the given character in the first column, followed by a
blank: the mark of the start or the end of a document. -/
def atMark (cursor : Cursor) (c : Char) : Bool :=
  cursor.column == 0 &&
    match cursor.rest with
    | c₁ :: c₂ :: c₃ :: rest => c₁ == c && c₂ == c && c₃ == c && blankAhead rest
    | _ => false

/-- Whether a mark of the start or the end of a document is ahead. -/
def atDocumentMark (cursor : Cursor) : Bool :=
  cursor.atMark '-' || cursor.atMark '.'

/-- Skips the rest of a line that may hold blanks and a comment only, and the line end. -/
def skipLineRemainder? (cursor : Cursor) : Option Cursor :=
  let cursor := cursor.skipSpaces.skipComment
  if breakAhead cursor.rest then some cursor.readBreak.2 else none

end Cursor

/-! ## Gaps -/

/-- A run of blanks and line ends within a scalar. -/
structure Gap where
  /-- The blanks before the first line end, in reverse. -/
  blanks : List Char := []
  /-- Whether a line has ended. -/
  broken : Bool := false
  /-- What the first line end reads as. -/
  first : List Char := []
  /-- What the further line ends read as, in reverse. -/
  more : List Char := []

namespace Gap

/-- The gap with one more space or tab; those at the start of a line do not count. -/
def addSpace (gap : Gap) (c : Char) : Gap :=
  if gap.broken then gap else { gap with blanks := c :: gap.blanks }

/-- The gap with one more line end; blanks before it do not count. -/
def addBreak (gap : Gap) (c : Char) : Gap :=
  if gap.broken then { gap with more := c :: gap.more }
  else { gap with blanks := [], broken := true, first := [c] }

/-- What the gap reads as: blanks as they are; one line feed as a space; further line ends alone. -/
def fold (gap : Gap) : List Char :=
  if gap.broken then
    if gap.first = ['\n'] then
      if gap.more.isEmpty then [' '] else gap.more.reverse
    else gap.first ++ gap.more.reverse
  else gap.blanks.reverse

/-- Reads on to the next character that is no blank and no line end; `cursor` stands in front of the
given text.  A tab left of column `tabsFrom` on a new line is refused. -/
def readFrom (tabsFrom : Nat) (gap : Gap) (cursor : Cursor) : List Char → Option (Gap × Cursor)
  | [] => some (gap, cursor)
  | '\r' :: '\n' :: rest =>
    readFrom tabsFrom (gap.addBreak '\n') (cursor.newLine ['\r', '\n'] rest) rest
  | c :: rest =>
    if isSpace c then
      if gap.broken && cursor.column < tabsFrom && c == '\t' then none
      else readFrom tabsFrom (gap.addSpace c) (cursor.past [c] rest) rest
    else if isBreak c then
      readFrom tabsFrom (gap.addBreak (breakText c)) (cursor.newLine [c] rest) rest
    else some (gap, cursor)

/-- Reads the gap at the cursor. -/
def read (tabsFrom : Nat) (gap : Gap) (cursor : Cursor) : Option (Gap × Cursor) :=
  readFrom tabsFrom gap cursor cursor.rest

end Gap

end YamlIndex.Yaml
