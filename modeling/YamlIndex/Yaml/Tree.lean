import YamlIndex.Yaml.Token.Lexer

/-!
# The tree that a document is written as

The tokens of a text spell one document: directives, perhaps a mark of its start, a tree of nodes,
and perhaps marks of its end.  The tree here is the written one.  Its scalars are still text with a
style and a tag, and an alias is still the number of an anchor; what the scalars mean and what the
aliases stand for is the matter of `YamlIndex.Yaml.Value`.

Collections are nested at most 128 levels deep.

An anchor is numbered by how many names of anchors have been met before it.  A name that is anchored
again keeps its place among the names, so a number can be given twice; an alias then stands for the
last node with its number.
-/

namespace YamlIndex.Yaml

/-- What stands in front of a node. -/
structure Properties where
  /-- The number of the anchor. -/
  anchor : Option Nat := none
  tag : Option Octets := none
  deriving DecidableEq, Repr

/-- A node as it is written. -/
inductive Tree where
  /-- Another node, by the number of its anchor. -/
  | alias (anchor : Nat)
  | scalar (properties : Properties) (style : Style) (text : List Char)
  | sequence (properties : Properties) (items : List Tree)
  | mapping (properties : Properties) (members : List (Tree × Tree))
  deriving Repr, Inhabited

/-- The deepest nesting of collections. -/
def maxDepth : Nat := 128

namespace Tree

/-- A node that is not written at all. -/
def absent : Tree :=
  .scalar {} .plain []

mutual

/-- The number of scalars and aliases and of the ends of collections. -/
def size : Tree → Nat
  | .alias _ => 1
  | .scalar _ _ _ => 1
  | .sequence _ items => 2 + sizeOfItems items
  | .mapping _ members => 2 + sizeOfMembers members

/-- The size of the elements of a sequence. -/
def sizeOfItems : List Tree → Nat
  | [] => 0
  | item :: rest => item.size + sizeOfItems rest

/-- The size of the members of a mapping. -/
def sizeOfMembers : List (Tree × Tree) → Nat
  | [] => 0
  | (key, value) :: rest => key.size + value.size + sizeOfMembers rest

end

/-- The number of the anchor in front of a node. -/
def anchor? : Tree → Option Nat
  | .alias _ => none
  | .scalar properties _ _ => properties.anchor
  | .sequence properties _ => properties.anchor
  | .mapping properties _ => properties.anchor

mutual

/-- The anchored nodes of a tree with their numbers, in document order. -/
def anchored (tree : Tree) : List (Nat × Tree) :=
  (tree.anchor?.map fun n => (n, tree)).toList ++
    match tree with
    | .alias _ => []
    | .scalar _ _ _ => []
    | .sequence _ items => anchoredItems items
    | .mapping _ members => anchoredMembers members

/-- The anchored nodes in the elements of a sequence. -/
def anchoredItems : List Tree → List (Nat × Tree)
  | [] => []
  | item :: rest => item.anchored ++ anchoredItems rest

/-- The anchored nodes in the members of a mapping. -/
def anchoredMembers : List (Tree × Tree) → List (Nat × Tree)
  | [] => []
  | (key, value) :: rest => key.anchored ++ value.anchored ++ anchoredMembers rest

end

/-- The nodes that aliases stand for, by the numbers of their anchors.  The last one comes first,
for it is the one that a look-up is to find. -/
def targets (root : Tree) : List (Nat × Tree) :=
  root.anchored.reverse

end Tree

/-! ## Reading nodes from tokens -/

namespace Tree

/-- The state of the reader between two tokens. -/
structure Reading where
  tokens : List Token
  /-- The handles of tags with what they stand for. -/
  handles : List (Octets × Octets) := []
  /-- The names of anchors with their numbers. -/
  anchors : List (List Char × Nat) := []

/-- A reader of tokens; it may fail. -/
abbrev Read := StateT Reading Option

/-- The next token; none at the end. -/
def peek : Read (Option Token) := do
  return (← get).tokens.head?

/-- Moves over the next token. -/
def advance : Read Unit :=
  modify fun state => { state with tokens := state.tokens.tail }

/-- Moves over the next token if it is the given one, and says whether it was. -/
def accept (token : Token) : Read Bool := do
  if (← peek) == some token then
    advance
    return true
  else
    return false

/-- Whether the next token is one of the given ones. -/
def atOneOf (tokens : List Token) : Read Bool := do
  return (← peek).any tokens.contains

/-- Moves over the comma between members, where there are some before, and says whether it stood
where it had to. -/
def separated {α : Type} (sofar : List α) : Read Bool :=
  if sofar.isEmpty then return true else accept .flowEntry

/-- The tag that a handle and a suffix make; fails on an unknown handle. -/
def resolveTag (handle suffix : Octets) : Read Octets := do
  if handle.isEmpty then return suffix
  else
    match (← get).handles.lookup handle with
    | some start => return start ++ suffix
    | none => failure

/-- Reads an anchor, if one is ahead. -/
def readAnchor : Read (Option (List Char)) := do
  match ← peek with
  | some (.anchor name) =>
    advance
    return some name
  | _ => return none

/-- Reads a tag, if one is ahead. -/
def readTag : Read (Option (Octets × Octets)) := do
  match ← peek with
  | some (.tag handle suffix) =>
    advance
    return some (handle, suffix)
  | _ => return none

/-- Reads an anchor and a tag, in either order. -/
def readProperties : Read (Option (List Char) × Option Octets) := do
  let first ← readAnchor
  let tag ← readTag
  let anchor ← if first.isNone && tag.isSome then readAnchor else pure first
  match tag with
  | none => return (anchor, none)
  | some (handle, suffix) => return (anchor, some (← resolveTag handle suffix))

/-- Numbers the anchor of a node. -/
def enter (name : Option (List Char)) (tag : Option Octets) : Read Properties := do
  match name with
  | none => return { tag }
  | some name =>
    let state ← get
    let n := state.anchors.length
    set { state with anchors := (name, n) :: state.anchors.filter fun entry => entry.1 != name }
    return { anchor := some n, tag }

mutual

/-- Reads a node.  `depth` is the number of levels of collections that it may have; block
collections are read where `block` says so, and sequences without indentation of their own where
`indentless` does. -/
def readNode (block indentless : Bool) : Nat → Nat → Read Tree
  | 0, _ => failure
  | steps + 1, depth => do
    match ← peek with
    | some (.alias name) =>
      advance
      match (← get).anchors.lookup name with
      | some n => return .alias n
      | none => failure
    | _ =>
      let (name, tag) ← readProperties
      match ← peek with
      | some (.scalar style text) =>
        advance
        return .scalar (← enter name tag) style text
      | some token =>
        let opens := token == .flowSequenceStart || token == .flowMappingStart ||
          (block && (token == .blockSequenceStart || token == .blockMappingStart)) ||
          (indentless && token == .blockEntry)
        if opens then
          let properties ← enter name tag
          match depth with
          | 0 => failure
          | depth + 1 => readCollection token properties steps depth
        else if name.isSome || tag.isSome then return .scalar (← enter name tag) .plain []
        else failure
      | none =>
        if name.isSome || tag.isSome then return .scalar (← enter name tag) .plain [] else failure
termination_by structural steps => steps

/-- Reads the collection that begins with the given token, which is ahead. -/
def readCollection (token : Token) (properties : Properties) : Nat → Nat → Read Tree
  | 0, _ => failure
  | steps + 1, depth =>
    match token with
    | .blockEntry => return .sequence properties (← readIndentless steps depth [])
    | .blockSequenceStart => do
      advance
      return .sequence properties (← readBlockItems steps depth [])
    | .blockMappingStart => do
      advance
      return .mapping properties (← readBlockMembers steps depth [])
    | .flowSequenceStart => do
      advance
      return .sequence properties (← readFlowItems steps depth [])
    | .flowMappingStart => do
      advance
      return .mapping properties (← readFlowMembers steps depth [])
    | _ => failure
termination_by structural steps => steps

/-- Reads a node of a block, which is absent if one of the given tokens is ahead. -/
def readUnless (block indentless : Bool) (ends : List Token) : Nat → Nat → Read Tree
  | 0, _ => failure
  | steps + 1, depth => do
    if ← atOneOf ends then return .absent else readNode block indentless steps depth
termination_by structural steps => steps

/-- Reads the elements of a block sequence behind those in `sofar`, which are in reverse. -/
def readBlockItems : Nat → Nat → List Tree → Read (List Tree)
  | 0, _, _ => failure
  | steps + 1, depth, sofar => do
    if ← accept .blockEntry then
      let item ← readUnless true false [.blockEntry, .blockEnd] steps depth
      readBlockItems steps depth (item :: sofar)
    else if ← accept .blockEnd then return sofar.reverse
    else failure
termination_by structural steps => steps

/-- Reads the elements of a sequence that has no indentation of its own. -/
def readIndentless : Nat → Nat → List Tree → Read (List Tree)
  | 0, _, _ => failure
  | steps + 1, depth, sofar => do
    if ← accept .blockEntry then
      let item ← readUnless true false [.blockEntry, .key, .value, .blockEnd] steps depth
      readIndentless steps depth (item :: sofar)
    else return sofar.reverse
termination_by structural steps => steps

/-- Reads the members of a block mapping. -/
def readBlockMembers : Nat → Nat → List (Tree × Tree) → Read (List (Tree × Tree))
  | 0, _, _ => failure
  | steps + 1, depth, sofar => do
    if ← accept .key then
      let ends := [.key, .value, .blockEnd]
      let key ← readUnless true true ends steps depth
      let value ← if ← accept .value then readUnless true true ends steps depth else pure .absent
      readBlockMembers steps depth ((key, value) :: sofar)
    else if ← accept .blockEnd then return sofar.reverse
    else failure
termination_by structural steps => steps

/-- Reads the elements of a flow sequence.  A key among them makes a mapping of one member. -/
def readFlowItems : Nat → Nat → List Tree → Read (List Tree)
  | 0, _, _ => failure
  | steps + 1, depth, sofar => do
    if ← accept .flowSequenceEnd then return sofar.reverse
    else if !(← separated sofar) then failure
    else if ← accept .flowSequenceEnd then return sofar.reverse
    else if ← accept .key then
      match depth with
      | 0 => failure
      | inner + 1 =>
        let pair ← readPair steps inner
        readFlowItems steps depth (pair :: sofar)
    else
      let item ← readNode false false steps depth
      readFlowItems steps depth (item :: sofar)
termination_by structural steps => steps

/-- Reads a mapping of one member in a flow sequence, behind the mark of its key. -/
def readPair : Nat → Nat → Read Tree
  | 0, _ => failure
  | steps + 1, depth => do
    let key ←
      if ← atOneOf [.value, .flowEntry, .flowSequenceEnd] then
        advance
        pure .absent
      else readNode false false steps depth
    let value ←
      if ← accept .value then readUnless false false [.flowEntry, .flowSequenceEnd] steps depth
      else pure .absent
    return .mapping {} [(key, value)]
termination_by structural steps => steps

/-- Reads the members of a flow mapping. -/
def readFlowMembers : Nat → Nat → List (Tree × Tree) → Read (List (Tree × Tree))
  | 0, _, _ => failure
  | steps + 1, depth, sofar => do
    let ends := [.flowEntry, .flowMappingEnd]
    if ← accept .flowMappingEnd then return sofar.reverse
    else if !(← separated sofar) then failure
    else if ← accept .flowMappingEnd then return sofar.reverse
    else if ← accept .key then
      let key ← readUnless false false (.value :: ends) steps depth
      let value ← if ← accept .value then readUnless false false ends steps depth else pure .absent
      readFlowMembers steps depth ((key, value) :: sofar)
    else
      let key ← readNode false false steps depth
      readFlowMembers steps depth ((key, .absent) :: sofar)
termination_by structural steps => steps

end

/-! ## Reading a document -/

/-- The handles of tags that are known in every document. -/
def standardHandles : List (Octets × Octets) :=
  [(Octets.ofAscii ['!'], Octets.ofAscii ['!']),
    (Octets.ofAscii ['!', '!'], Octets.ofAscii "tag:yaml.org,2002:".toList)]

/-- Reads the directives in front of a document.  The version may be given once, and so may each
handle. -/
def readDirectives (versioned : Bool) (handles : List (Octets × Octets)) :
    List Token → Option (List (Octets × Octets) × List Token)
  | .versionDirective major minor :: rest =>
    if versioned || major != 1 || (minor != 1 && minor != 2) then none
    else readDirectives true handles rest
  | .tagDirective handle start :: rest =>
    if (handles.lookup handle).isSome then none
    else readDirectives versioned ((handle, start) :: handles) rest
  | tokens => some (handles, tokens)

/-- Whether a document that has been announced has nothing in it. -/
def endsDocument : List Token → Bool
  | [] => true
  | .versionDirective _ _ :: _ => true
  | .tagDirective _ _ :: _ => true
  | token :: _ => token == .documentStart || token == .documentEnd

/-- Reads the root of a document.  Every two steps take a token, but for a few at the start. -/
def readRoot (handles : List (Octets × Octets)) (tokens : List Token) :
    Option (Tree × List Token) := do
  let steps := 3 * tokens.length + 3
  let (root, state) ←
    (readNode true false steps maxDepth).run { tokens, handles := handles ++ standardHandles }
  return (root, state.tokens)

/-- Reads the first document: its root, if it has one, and the tokens behind it. -/
def readDocument : List Token → Option (Option Tree × List Token)
  | [] => some (none, [])
  | tokens => do
    let (handles, rest) ← readDirectives false [] tokens
    match rest with
    | .documentStart :: rest =>
      if endsDocument rest then return (some .absent, rest)
      else (readRoot handles rest).map fun (root, rest) => (some root, rest)
    | _ =>
      if rest.length = tokens.length then
        (readRoot [] tokens).map fun (root, rest) => (some root, rest)
      else none

/-- The root of the only document of a text.  Fails when the text is malformed or has more than one
document; the root is none when the text has not even an empty one. -/
def ofText? (text : List Char) : Option (Option Tree) := do
  let (root, rest) ← readDocument (← tokens? text)
  if rest.all (· == .documentEnd) then return root else none

end Tree

end YamlIndex.Yaml
