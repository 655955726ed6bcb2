import YamlIndex.Yaml.Cursor
import YamlIndex.Yaml.Token

/-!
# Scalars

A scalar is written in one of five styles, each with rules of its own on what ends it and on what
becomes of its line ends.  Plain and quoted scalars fold the gaps between their words.  Blocks of
text take their indentation from a digit in their first line or from their first line of text, and
keep or drop the line ends behind them as a sign there says.

Each reader takes the cursor behind the scalar; none means that the text is malformed.  Readers
that go from word to word or from line to line carry a bound on the number of steps, for which the
size of the text serves: every step reads a character.
-/

namespace YamlIndex.Yaml

/-! ## Quoted scalars -/

/-- What follows a backslash in a double-quoted scalar: a character of its own, or the number of
hexadecimal digits that give one. -/
inductive Escape where
  | character (c : Char)
  | digits (count : Nat)
  deriving DecidableEq, Repr

/-- The escape for a character behind a backslash. -/
def escapeKind? : Char → Option Escape
  | '0' => some (.character '\x00')
  | 'a' => some (.character '\x07')
  | 'b' => some (.character '\x08')
  | 't' => some (.character '\t')
  | '\t' => some (.character '\t')
  | 'n' => some (.character '\n')
  | 'v' => some (.character '\x0b')
  | 'f' => some (.character '\x0c')
  | 'r' => some (.character '\r')
  | 'e' => some (.character '\x1b')
  | ' ' => some (.character ' ')
  | '"' => some (.character '"')
  | '/' => some (.character '/')
  | '\\' => some (.character '\\')
  | 'N' => some (.character (Char.ofNat 0x85))
  | '_' => some (.character (Char.ofNat 0xa0))
  | 'L' => some (.character (Char.ofNat 0x2028))
  | 'P' => some (.character (Char.ofNat 0x2029))
  | 'x' => some (.digits 2)
  | 'u' => some (.digits 4)
  | 'U' => some (.digits 8)
  | _ => none

/-- The character that a number of hexadecimal digits at the front of a text gives; none when there
are fewer or the number is no character. -/
def numberedChar? (count : Nat) (s : List Char) : Option Char := do
  let values ← (s.take count).mapM Text.hexValue?
  let n := values.foldl (fun n d => 16 * n + d) 0
  if values.length = count ∧ n.isValidChar then some (Char.ofNat n) else none

/-- Reads an escape that stands behind a backslash: its character and the number of characters
read. -/
def readEscape? : List Char → Option (Char × Nat)
  | [] => none
  | c :: rest => do
    match ← escapeKind? c with
    | .character d => some (d, 1)
    | .digits count => (numberedChar? count rest).map fun d => (d, count + 1)

/-- Where a run of characters in a quoted scalar has stopped. -/
structure QuotedRun where
  /-- All characters of the scalar up to here, in reverse. -/
  sofar : List Char
  cursor : Cursor
  /-- Whether a backslash in front of a line end stopped the run. -/
  joined : Bool := false

/-- Reads characters of a quoted scalar up to a blank, a line end or the closing quote. -/
def readQuotedRun? (quote : Char) : Nat → List Char → Cursor → Option QuotedRun
  | 0, sofar, cursor => some { sofar, cursor }
  | steps + 1, sofar, cursor =>
    match cursor.rest with
    | [] => some { sofar, cursor }
    | c :: rest =>
      if isSpace c || isBreak c then some { sofar, cursor }
      else if quote == '\'' && c == '\'' && rest.head? == some '\'' then
        readQuotedRun? quote steps ('\'' :: sofar) (cursor.skip 2)
      else if c == quote then some { sofar, cursor }
      else if quote == '"' && c == '\\' then
        if rest.head?.any isBreak then
          some { sofar, cursor := (cursor.skip 1).readBreak.2, joined := true }
        else do
          let (d, count) ← readEscape? rest
          readQuotedRun? quote steps (d :: sofar) (cursor.skip (count + 1))
      else readQuotedRun? quote steps (c :: sofar) (cursor.skip 1)

/-- Reads a quoted scalar up to its closing quote. -/
def readQuotedFrom? (quote : Char) : Nat → List Char → Cursor → Option (List Char × Cursor)
  | 0, _, _ => none
  | steps + 1, sofar, cursor => do
    if cursor.atDocumentMark || cursor.rest.isEmpty then none
    else
      let run ← readQuotedRun? quote (cursor.size + 1) sofar cursor
      if run.cursor.rest.head? == some quote then
        return (run.sofar.reverse, run.cursor.skip 1)
      else
        let (gap, cursor) ← Gap.read 0 { broken := run.joined } run.cursor
        readQuotedFrom? quote steps (gap.fold.reverse ++ run.sofar) cursor

/-- Reads a quoted scalar, whose opening quote is ahead. -/
def readQuoted? (quote : Char) (cursor : Cursor) : Option (Token × Cursor) := do
  let (text, cursor) ← readQuotedFrom? quote (cursor.size + 1) [] (cursor.skip 1)
  return (.scalar (if quote == '"' then .doubleQuoted else .singleQuoted) text, cursor)

/-! ## Plain scalars -/

/-- Whether a character has a meaning of its own between the brackets of a flow collection. -/
def isFlowIndicator (c : Char) : Bool :=
  [',', '[', ']', '{', '}'].contains c

/-- Reads characters of a plain scalar up to a blank, a line end or an indicator that ends it: the
characters in reverse, and what follows.
Inside a flow collection a colon in front of an indicator is refused. -/
def readPlainRun? (inFlow : Bool) (sofar : List Char) :
    List Char → Option (List Char × List Char)
  | [] => some (sofar, [])
  | c :: rest =>
    if isSpace c || isBreak c then some (sofar, c :: rest)
    else if inFlow && c == ':' && rest.head?.any (fun d => isFlowIndicator d || d == '?') then none
    else if c == ':' && blankAhead rest then some (sofar, c :: rest)
    else if inFlow && isFlowIndicator c then some (sofar, c :: rest)
    else readPlainRun? inFlow (c :: sofar) rest

/-- A plain scalar that has been read. -/
structure PlainScalar where
  text : List Char
  cursor : Cursor
  /-- Whether the cursor has come to a new line. -/
  broken : Bool

/-- Reads a plain scalar on from the given gap, which counts only if more of the scalar follows. -/
def readPlainFrom? (inFlow : Bool) (indent : Nat) :
    Nat → List Char → Gap → Cursor → Option PlainScalar
  | 0, _, _, _ => none
  | steps + 1, sofar, gap, cursor => do
    if cursor.atDocumentMark || cursor.rest.head? == some '#' then
      return ⟨sofar.reverse, cursor, gap.broken⟩
    else
      let (run, rest) ← readPlainRun? inFlow [] cursor.rest
      let cursor := cursor.past run rest
      let (sofar, gap) :=
        if run.isEmpty then (sofar, gap) else (run ++ gap.fold.reverse ++ sofar, {})
      if rest.isEmpty || !blankAhead rest then return ⟨sofar.reverse, cursor, gap.broken⟩
      else
        let (gap, cursor) ← Gap.read indent gap cursor
        if !inFlow && cursor.column < indent then return ⟨sofar.reverse, cursor, gap.broken⟩
        else readPlainFrom? inFlow indent steps sofar gap cursor

/-- Reads the plain scalar ahead, whose further lines stand at `indent` or further right. -/
def readPlain? (inFlow : Bool) (indent : Nat) (cursor : Cursor) : Option PlainScalar :=
  readPlainFrom? inFlow indent (cursor.size + 1) [] {} cursor

/-! ## Blocks of text -/

/-- What becomes of the line ends behind a block. -/
inductive Chomping where
  | strip
  | clip
  | keep
  deriving DecidableEq, Repr

/-- What the first line of a block says. -/
structure BlockHeader where
  chomping : Chomping := .clip
  /-- The further indentation of the block, if it is given. -/
  increment : Option Nat := none

/-- The chomping that a sign stands for. -/
def chomping? : Char → Option Chomping
  | '+' => some .keep
  | '-' => some .strip
  | _ => none

/-- Reads the signs behind the indicator of a block: one for its line ends and a digit for its
indentation, in either order. -/
def readBlockHeader? (cursor : Cursor) : Option (BlockHeader × Cursor) :=
  match cursor.rest with
  | c :: rest =>
    match chomping? c with
    | some chomping =>
      match rest with
      | d :: _ =>
        if !Text.isDigit d then some ({ chomping }, cursor.skip 1)
        else if d == '0' then none
        else some ({ chomping, increment := some (Text.digitValue d) }, cursor.skip 2)
      | [] => some ({ chomping }, cursor.skip 1)
    | none =>
      if !Text.isDigit c then some ({}, cursor)
      else if c == '0' then none
      else
        let increment := some (Text.digitValue c)
        match rest.head?.bind chomping? with
        | some chomping => some ({ chomping, increment }, cursor.skip 2)
        | none => some ({ increment }, cursor.skip 1)
  | [] => some ({}, cursor)

/-- The line ends and the indentation in front of a line of a block. -/
structure BlockGap where
  /-- What the line ends read as, in reverse. -/
  breaks : List Char := []
  /-- The furthest column that the indentation of a line has reached. -/
  furthest : Nat := 0

/-- The gap once the indentation of a line has reached a column. -/
def BlockGap.reach (gap : BlockGap) (column : Nat) : BlockGap :=
  { gap with furthest := max gap.furthest column }

/-- The gap with the end of an empty line. -/
def BlockGap.addBreak (gap : BlockGap) (c : Char) (column : Nat) : BlockGap :=
  { gap.reach column with breaks := c :: gap.breaks }

/-- Reads empty lines and indentation, the latter up to the given column if there is one; `cursor`
stands in front of the given text.  A tab in the indentation is refused. -/
def BlockGap.readFrom (indent : Option Nat) (gap : BlockGap) (cursor : Cursor) :
    List Char → Option (BlockGap × Cursor)
  | [] => some (gap.reach cursor.column, cursor)
  | '\r' :: '\n' :: rest =>
    readFrom indent (gap.addBreak '\n' cursor.column) (cursor.newLine ['\r', '\n'] rest) rest
  | c :: rest =>
    let indenting := indent.all fun n => cursor.column < n
    if indenting && c == ' ' then readFrom indent gap (cursor.past [c] rest) rest
    else if indenting && c == '\t' then none
    else if isBreak c then
      readFrom indent (gap.addBreak (breakText c) cursor.column) (cursor.newLine [c] rest) rest
    else some (gap.reach cursor.column, cursor)

/-- Reads the gap in front of a line of a block. -/
def BlockGap.read (indent : Option Nat) (cursor : Cursor) : Option (BlockGap × Cursor) :=
  readFrom indent {} cursor cursor.rest

/-- The text of a block up to some line, in reverse, with what has been read behind the line. -/
structure BlockText where
  sofar : List Char := []
  /-- The end of the line. -/
  lineEnd : List Char := []
  /-- The empty lines behind it, in reverse. -/
  breaks : List Char := []
  /-- Whether the line began with a blank. -/
  indented : Bool := false

/-- The text with the next line begun.  In a folded block a line end between lines that both begin
with text is a space, or nothing when empty lines follow. -/
def BlockText.join (text : BlockText) (folded indented : Bool) : List Char :=
  if folded && text.lineEnd == ['\n'] && !text.indented && !indented then
    if text.breaks.isEmpty then ' ' :: text.sofar else text.breaks ++ text.sofar
  else text.breaks ++ text.lineEnd ++ text.sofar

/-- Reads the lines of a block that stand at the given column. -/
def readBlockLines? (folded : Bool) (indent : Nat) :
    Nat → BlockText → Cursor → Option (BlockText × Cursor)
  | 0, text, cursor => some (text, cursor)
  | steps + 1, text, cursor => do
    if cursor.column != indent || cursor.rest.isEmpty then return (text, cursor)
    else
      let indented := cursor.rest.head?.any isSpace
      let (run, cursor) := cursor.span fun c => !isBreak c
      let sofar := run.reverse ++ text.join folded indented
      let (lineEnd, cursor) := cursor.readBreak
      let (gap, cursor) ← BlockGap.read (some indent) cursor
      readBlockLines? folded indent steps { sofar, lineEnd, breaks := gap.breaks, indented } cursor

/-- The text of a block with the line ends behind it that are kept. -/
def BlockText.close (text : BlockText) : Chomping → List Char
  | .strip => text.sofar.reverse
  | .clip => (text.lineEnd ++ text.sofar).reverse
  | .keep => (text.breaks ++ text.lineEnd ++ text.sofar).reverse

/-- Reads a block of text, whose indicator is ahead, inside a block that stands at column `parent`.
-/
def readBlock? (folded : Bool) (parent : Option Nat) (cursor : Cursor) :
    Option (Token × Cursor) := do
  let (header, cursor) ← readBlockHeader? (cursor.skip 1)
  let cursor ← cursor.skipLineRemainder?
  let given := header.increment.map fun n => parent.getD 0 + n
  let (gap, cursor) ← BlockGap.read given cursor
  let least := (parent.map (· + 1)).getD 0
  let indent := given.getD (max (max gap.furthest least) 1)
  let (text, cursor) ←
    readBlockLines? folded indent (cursor.size + 1) { breaks := gap.breaks } cursor
  return (.scalar (if folded then .folded else .literal) (text.close header.chomping), cursor)

end YamlIndex.Yaml
