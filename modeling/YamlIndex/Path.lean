import YamlIndex.Text.Number

/-!
# Paths into a document

A path leads from the root of a document to a node: a chain of mapping keys and of positions in
sequences, counted from one.  It is written with dots, `spec.containers.1.name`.  The dotted text is
read back segment by segment: blanks around a segment are dropped, an empty segment vanishes, and a
segment of ASCII digits whose value is a word is a position.  A key that holds a dot, or that would
read as a position, is therefore not written in a way that can be read back.

Paths are lists of segments, so the list library applies; the functions here give the domain's
words.

## Main results

* `startsWith_iff`: a path starts with another one when that one is a prefix of it.
* `itemPosition_child_index`: an element of a sequence has its own position.
-/

namespace YamlIndex

/-- One step of a path. -/
inductive Segment where
  /-- The value of a mapping under a key. -/
  | key (name : String)
  /-- The element of a sequence at a position, counted from one. -/
  | index (position : Nat)
  deriving DecidableEq, Repr, Inhabited

namespace Segment

/-- The text of a segment. -/
def text : Segment → String
  | key name => name
  | index position => Text.decimal position

/-- Whether the segment is a position. -/
def isIndex : Segment → Bool
  | key _ => false
  | index _ => true

/-- The key of a segment that is one. -/
def key? : Segment → Option String
  | key name => some name
  | index _ => none

/-- The position of a segment that is one. -/
def index? : Segment → Option Nat
  | key _ => none
  | index position => some position

/-- The segment that a text between dots stands for. -/
def ofText (s : List Char) : Segment :=
  match Text.word? s with
  | some position => index position
  | none => key (String.ofList s)

/-- Keys come before positions; keys are ordered by their characters, positions by number. -/
def order : Segment → Segment → Ordering
  | key a, key b => compare a b
  | key _, index _ => .lt
  | index _, key _ => .gt
  | index m, index n => compare m n

end Segment

/-- A chain of segments, outermost first. -/
abbrev Path := List Segment

namespace Path

/-- The text of a path: its segments with dots between them. -/
def dotted (path : Path) : String :=
  String.intercalate "." (path.map Segment.text)

/-- The path that a dotted text stands for. -/
def ofDotted (query : String) : Path :=
  (((Text.splitAll '.' query.toList).map Text.trim).filter fun s => !s.isEmpty).map Segment.ofText

/-- The path one segment further. -/
def child (path : Path) (segment : Segment) : Path :=
  path ++ [segment]

/-- Whether the path begins with all of another one. -/
def startsWith (path other : Path) : Bool :=
  other.isPrefixOf path

/-- The innermost position among the last two segments: that of the sequence element the path leads
to, or that of the element whose direct child it leads to. -/
def itemPosition (path : Path) : Option Nat :=
  (path.reverse.take 2).findSome? Segment.index?

/-- Segment by segment, a path before its extensions. -/
def order : Path → Path → Ordering
  | [], [] => .eq
  | [], _ :: _ => .lt
  | _ :: _, [] => .gt
  | a :: as, b :: bs => (Segment.order a b).then (order as bs)

theorem startsWith_iff {path other : Path} : path.startsWith other = true ↔ other <+: path := by
  simp [startsWith, List.isPrefixOf_iff_prefix]

theorem itemPosition_child_index (path : Path) (n : Nat) :
    (path.child (.index n)).itemPosition = some n := by
  simp [itemPosition, child, Segment.index?, List.findSome?]

end Path

end YamlIndex
