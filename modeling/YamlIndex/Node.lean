import YamlIndex.Path

/-!
# The tree of a document and its outline

A document that has been read in full is a tree of mappings, sequences and scalars.  Its *outline*
lists every node but the root, parents before children and children in document order, each with the
path that leads to it.  The outline knows no lines; `YamlIndex.Association` ties the two together.

A mapping may hold a key more than once; each occurrence is a node of its own.
-/

namespace YamlIndex

/-- A document or a part of one. -/
inductive Node where
  | null
  | scalar (text : String)
  | sequence (items : List Node)
  | mapping (members : List (String × Node))
  deriving Repr, Inhabited

/-- Reads the text of a document; none when the text is not one. -/
abbrev Reader := String → Option Node

/-- The text of a scalar. -/
def Node.text? : Node → Option String
  | .scalar text => some text
  | _ => none

/-- A node by the path that leads to it. -/
structure OutlineEntry where
  path : Path
  /-- The text of a scalar; none for a null, a mapping or a sequence. -/
  value : Option String
  /-- The position of an element of a sequence, passed on to its direct children in a mapping. -/
  position : Option Nat
  deriving DecidableEq, Repr

namespace OutlineEntry

/-- Whether the node is an element of a sequence, or a direct child of one in a mapping. -/
def isItem (entry : OutlineEntry) : Bool :=
  entry.position.isSome

/-- The key that the path ends in, if it ends in one. -/
def key? (entry : OutlineEntry) : Option String :=
  entry.path.getLast?.bind Segment.key?

/-- The text of the last segment. -/
def name (entry : OutlineEntry) : String :=
  (entry.path.getLast?.map Segment.text).getD ""

end OutlineEntry

namespace Node

mutual

/-- The outline of what lies below a node at the given path; `position` is that of the node when it
is an element of a sequence. -/
def outlineBelow (path : Path) (position : Option Nat) : Node → List OutlineEntry
  | .null => []
  | .scalar _ => []
  | .sequence items => outlineItems path 1 items
  | .mapping members => outlineMembers path position members

/-- The outline of the elements of a sequence, the first of which has the given position. -/
def outlineItems (path : Path) (position : Nat) : List Node → List OutlineEntry
  | [] => []
  | item :: rest =>
    let itemPath := path.child (.index position)
    ⟨itemPath, item.text?, some position⟩ ::
      (outlineBelow itemPath (some position) item ++ outlineItems path (position + 1) rest)

/-- The outline of the members of a mapping. -/
def outlineMembers (path : Path) (position : Option Nat) :
    List (String × Node) → List OutlineEntry
  | [] => []
  | (key, child) :: rest =>
    let childPath := path.child (.key key)
    ⟨childPath, child.text?, position⟩ ::
      (outlineBelow childPath none child ++ outlineMembers path position rest)

end

/-- An entry for every node but the root, in document order. -/
def outline (root : Node) : List OutlineEntry :=
  outlineBelow [] none root

end Node

end YamlIndex
