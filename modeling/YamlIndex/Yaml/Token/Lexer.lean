import YamlIndex.Yaml.Token.Property
import YamlIndex.Yaml.Token.Scalar

/-!
# From text to tokens

A key is known as one only when the colon behind it is met.  So the lexer notes, for each level of
flow collections, the last place where a key may have begun: its number among the tokens and its
place in the text.  When a colon comes, a key token is put in at that number, and a block mapping
is opened there if the column asks for it.  A noted key lapses at the end of its line or after 1024
octets; in a block, one that stands at the column of the open block must not lapse.

Tokens are kept newest first, so that putting one in is close to the front.
-/

namespace YamlIndex.Yaml

/-- A place where a key may have begun. -/
structure PendingKey where
  /-- The number of tokens before. -/
  place : Nat
  /-- Whether the line is malformed if this is no key. -/
  required : Bool
  index : Nat
  line : Nat
  column : Nat
  deriving Repr

/-- The state of the lexer between two tokens. -/
structure Lexer where
  cursor : Cursor
  /-- The tokens so far, newest first. -/
  tokens : List Token := []
  /-- The number of tokens so far. -/
  count : Nat := 0
  /-- The columns of the open blocks, innermost first. -/
  blocks : List Nat := []
  /-- Whether a key may begin here. -/
  keyAllowed : Bool := true
  /-- What may be a key at the present level of flow collections. -/
  pending : Option PendingKey := none
  /-- The same for the levels outside, innermost first. -/
  outer : List (Option PendingKey) := []

namespace Lexer

/-- Whether a flow collection is open. -/
def inFlow (lexer : Lexer) : Bool :=
  !lexer.outer.isEmpty

/-- The lexer with one more token. -/
def emit (lexer : Lexer) (token : Token) : Lexer :=
  { lexer with tokens := token :: lexer.tokens, count := lexer.count + 1 }

/-- Puts a token in, with the given number of tokens behind it. -/
def insertAt (token : Token) : Nat → List Token → List Token
  | 0, tokens => token :: tokens
  | _ + 1, [] => [token]
  | n + 1, newer :: tokens => newer :: insertAt token n tokens

/-- Puts a token in behind the first `place` tokens. -/
def insert (lexer : Lexer) (token : Token) (place : Nat) : Lexer :=
  { lexer with
    tokens := insertAt token (lexer.count - place) lexer.tokens
    count := lexer.count + 1 }

/-! ## Blocks -/

/-- Whether a block at the given column would be further right than the innermost open one. -/
def opensAt (lexer : Lexer) (column : Nat) : Bool :=
  !lexer.inFlow && lexer.blocks.head?.all fun outer => outer < column

/-- Closes the blocks for which `p` holds of their columns, from the innermost out. -/
def closeBlocks (lexer : Lexer) (p : Nat → Bool) : Lexer :=
  if lexer.inFlow then lexer
  else
    let closed := lexer.blocks.takeWhile p
    closed.foldl (fun lexer _ => lexer.emit .blockEnd)
      { lexer with blocks := lexer.blocks.drop closed.length }

/-- Opens a block of the given kind at a column, unless one is open there already. -/
def openBlock (lexer : Lexer) (token : Token) (column : Nat) : Lexer :=
  if lexer.opensAt column then { lexer.emit token with blocks := column :: lexer.blocks } else lexer

/-! ## Pending keys -/

/-- Whether a pending key has lapsed at the cursor. -/
def hasLapsed (cursor : Cursor) (key : PendingKey) : Bool :=
  key.line < cursor.line || key.index + 1024 < cursor.index

/-- Drops the pending key of this level if it has lapsed; fails when it was required.  What has
lapsed stays so, and a text with a level that is not closed is malformed anyway, so the levels
outside can wait until they are this level again. -/
def dropLapsed? (lexer : Lexer) : Option Lexer :=
  match lexer.pending with
  | none => some lexer
  | some key =>
    if !hasLapsed lexer.cursor key then some lexer
    else if key.required then none
    else some { lexer with pending := none }

/-- Drops the pending key of this level; fails when it was required. -/
def dropPending? (lexer : Lexer) : Option Lexer :=
  if lexer.pending.any PendingKey.required then none else some { lexer with pending := none }

/-- Notes that a key may begin here, if one may. -/
def notePending? (lexer : Lexer) : Option Lexer :=
  if !lexer.keyAllowed then some lexer
  else do
    let lexer ← lexer.dropPending?
    let cursor := lexer.cursor
    let required := !lexer.inFlow && lexer.blocks.head? == some cursor.column
    return { lexer with
      pending := some ⟨lexer.count, required, cursor.index, cursor.line, cursor.column⟩ }

/-! ## Between tokens -/

/-- Reads on over blanks, comments and line ends; `cursor` stands in front of the given text.  In a
block the start of a line is where a key may begin, and no tab may stand before one.  A byte order
mark may open any line; it takes a column of its own. -/
def skipFrom (inFlow : Bool) (keyAllowed inComment : Bool) (cursor : Cursor) :
    List Char → Bool × Cursor
  | [] => (keyAllowed, cursor)
  | '\r' :: '\n' :: rest =>
    skipFrom inFlow (keyAllowed || !inFlow) false (cursor.newLine ['\r', '\n'] rest) rest
  | c :: rest =>
    if isBreak c then skipFrom inFlow (keyAllowed || !inFlow) false (cursor.newLine [c] rest) rest
    else if cursor.column == 0 && c == orderMark then
      skipFrom inFlow keyAllowed inComment (cursor.past [c] rest) rest
    else if inComment || c == ' ' || (c == '\t' && (inFlow || !keyAllowed)) then
      skipFrom inFlow keyAllowed inComment (cursor.past [c] rest) rest
    else if c == '#' then skipFrom inFlow keyAllowed true (cursor.past [c] rest) rest
    else (keyAllowed, cursor)

/-- Moves to the next token. -/
def skipToToken (lexer : Lexer) : Lexer :=
  let (keyAllowed, cursor) :=
    skipFrom lexer.inFlow lexer.keyAllowed false lexer.cursor lexer.cursor.rest
  { lexer with keyAllowed, cursor }

/-! ## Tokens -/

/-- Reads a token with one of the readers of scalars and properties. -/
def readWith? (lexer : Lexer) (read : Cursor → Option (Token × Cursor)) (keyAllowed : Bool) :
    Option Lexer := do
  let (token, cursor) ← read lexer.cursor
  return { lexer.emit token with cursor, keyAllowed }

/-- Reads a directive. -/
def directive? (lexer : Lexer) : Option Lexer := do
  let lexer ← (lexer.closeBlocks fun _ => true).dropPending?
  lexer.readWith? readDirective? false

/-- Reads the mark of the start or the end of a document. -/
def documentMark? (lexer : Lexer) (token : Token) : Option Lexer := do
  let lexer ← (lexer.closeBlocks fun _ => true).dropPending?
  lexer.readWith? (fun cursor => some (token, cursor.skip 3)) false

/-- Reads an indicator of one character. -/
def indicator (lexer : Lexer) (token : Token) (keyAllowed : Bool) : Lexer :=
  { lexer.emit token with cursor := lexer.cursor.skip 1, keyAllowed }

/-- Reads the opening bracket of a flow collection. -/
def openFlow? (lexer : Lexer) (token : Token) : Option Lexer := do
  let lexer ← lexer.notePending?
  return { lexer with pending := none, outer := lexer.pending :: lexer.outer }.indicator token true

/-- Reads the closing bracket of a flow collection. -/
def closeFlow? (lexer : Lexer) (token : Token) : Option Lexer := do
  let lexer ← lexer.dropPending?
  let lexer := match lexer.outer with
    | pending :: outer => { lexer with pending, outer }
    | [] => lexer
  return lexer.indicator token false

/-- Reads the dash of a block sequence. -/
def dash? (lexer : Lexer) : Option Lexer := do
  if !lexer.inFlow && !lexer.keyAllowed then none
  else
    let lexer ← (lexer.openBlock .blockSequenceStart lexer.cursor.column).dropPending?
    return lexer.indicator .blockEntry true

/-- Reads the question mark in front of a key. -/
def key? (lexer : Lexer) : Option Lexer := do
  if !lexer.inFlow && !lexer.keyAllowed then none
  else
    let lexer ← (lexer.openBlock .blockMappingStart lexer.cursor.column).dropPending?
    return lexer.indicator .key (!lexer.inFlow)

/-- Reads the colon behind a key.  What has been noted as a possible key becomes one. -/
def value? (lexer : Lexer) : Option Lexer :=
  match lexer.pending with
  | some key =>
    let keyed := { lexer.insert .key key.place with pending := none }
    let opened :=
      if lexer.opensAt key.column then
        { keyed.insert .blockMappingStart key.place with blocks := key.column :: lexer.blocks }
      else keyed
    some (opened.indicator .value false)
  | none =>
    if !lexer.inFlow && !lexer.keyAllowed then none
    else
      some ((lexer.openBlock .blockMappingStart lexer.cursor.column).indicator .value
        (!lexer.inFlow))

/-- Reads a block of text. -/
def block? (lexer : Lexer) (folded : Bool) : Option Lexer := do
  let lexer ← lexer.dropPending?
  lexer.readWith? (readBlock? folded lexer.blocks.head?) true

/-- Reads a plain scalar.  When it has come to a new line, a key may begin there. -/
def plain? (lexer : Lexer) : Option Lexer := do
  let lexer ← lexer.notePending?
  let indent := (lexer.blocks.head?.map (· + 1)).getD 0
  let scalar ← readPlain? lexer.inFlow indent lexer.cursor
  return { lexer.emit (.scalar .plain scalar.text) with
    cursor := scalar.cursor, keyAllowed := scalar.broken }

/-- Whether a plain scalar may begin with the character, `rest` being what follows. -/
def beginsPlain (inFlow : Bool) (c : Char) (rest : List Char) : Bool :=
  if c == '-' then !(rest.head?.any isSpace)
  else if c == '?' || c == ':' then !inFlow && !blankAhead rest
  else
    !(isSpace c || isBreak c || isFlowIndicator c ||
      ['#', '&', '*', '!', '|', '>', '\'', '"', '%', '@', '`'].contains c)

/-- Reads the token at the cursor, which begins with the given character. -/
def token? (lexer : Lexer) (c : Char) (rest : List Char) : Option Lexer :=
  let cursor := lexer.cursor
  if cursor.column == 0 && c == '%' then lexer.directive?
  else if cursor.atMark '-' then lexer.documentMark? .documentStart
  else if cursor.atMark '.' then lexer.documentMark? .documentEnd
  else if c == '[' then lexer.openFlow? .flowSequenceStart
  else if c == '{' then lexer.openFlow? .flowMappingStart
  else if c == ']' then lexer.closeFlow? .flowSequenceEnd
  else if c == '}' then lexer.closeFlow? .flowMappingEnd
  else if c == ',' then lexer.dropPending?.map fun lexer => lexer.indicator .flowEntry true
  else if c == '-' && blankAhead rest then lexer.dash?
  else if c == '?' && (lexer.inFlow || blankAhead rest) then lexer.key?
  else if c == ':' && (lexer.inFlow || blankAhead rest) then lexer.value?
  else if c == '*' then do
    (← lexer.notePending?).readWith?
      (fun cursor => (readName? cursor).map fun (name, cursor) => (.alias name, cursor)) false
  else if c == '&' then do
    (← lexer.notePending?).readWith?
      (fun cursor => (readName? cursor).map fun (name, cursor) => (.anchor name, cursor)) false
  else if c == '!' then do (← lexer.notePending?).readWith? (readTag? lexer.inFlow) false
  else if c == '|' && !lexer.inFlow then lexer.block? false
  else if c == '>' && !lexer.inFlow then lexer.block? true
  else if c == '\'' || c == '"' then do (← lexer.notePending?).readWith? (readQuoted? c) false
  else if beginsPlain lexer.inFlow c rest then lexer.plain?
  else none

/-- The tokens once the end of the text is reached: all open blocks end. -/
def finish? (lexer : Lexer) : Option (List Token) := do
  let lexer ← (lexer.closeBlocks fun _ => true).dropPending?
  return lexer.tokens.reverse

/-- Reads token after token up to the end of the text.  The first argument bounds their number. -/
def readAll? : Nat → Lexer → Option (List Token)
  | 0, _ => none
  | steps + 1, lexer => do
    let lexer ← lexer.skipToToken.dropLapsed?
    let lexer := lexer.closeBlocks fun column => lexer.cursor.column < column
    match lexer.cursor.rest with
    | [] => lexer.finish?
    | c :: rest => readAll? steps (← lexer.token? c rest)

end Lexer

/-- The tokens of a text; none when it is malformed.  Every token but those for blocks takes a
character, so the number of characters bounds the number of steps. -/
def tokens? (text : List Char) : Option (List Token) :=
  if text.all isAllowed then
    (Lexer.mk (.start text) [] 0 [] true none []).readAll? (text.length + 1)
  else none

end YamlIndex.Yaml
