import YamlIndex.Path

/-!
# The ancestors of a line

While the lines of a document go by, the scanner keeps the chain of keys and positions that the next
line may belong to, each with the column where it stands.  A new line closes what stands at its own
column or further right.  A sequence marker is the exception: at the column of a key it belongs to
that key, so there it closes positions only.

The chain is kept innermost first; closing is dropping from the front.

## Main results

* `path_push`: an opened ancestor extends the path by its segment.
-/

namespace YamlIndex

/-- A key or a position together with the column where it stands. -/
structure Ancestor where
  segment : Segment
  column : Nat
  deriving DecidableEq, Repr

/-- The open ancestors of the lines to come. -/
structure Ancestors where
  /-- Innermost first. -/
  chain : List Ancestor := []
  deriving DecidableEq, Repr

namespace Ancestors

/-- The chain, outermost first. -/
def outermostFirst (ancestors : Ancestors) : List Ancestor :=
  ancestors.chain.reverse

/-- The path that the chain spells. -/
def path (ancestors : Ancestors) : Path :=
  ancestors.outermostFirst.map Ancestor.segment

/-- Opens one more ancestor. -/
def push (ancestors : Ancestors) (segment : Segment) (column : Nat) : Ancestors :=
  ⟨⟨segment, column⟩ :: ancestors.chain⟩

/-- The chain without its innermost ancestor. -/
def pop (ancestors : Ancestors) : Ancestors :=
  ⟨ancestors.chain.tail⟩

/-- Closes what a key at the given column closes: all that stands there or further right. -/
def close (ancestors : Ancestors) (column : Nat) : Ancestors :=
  ⟨ancestors.chain.dropWhile fun a => column ≤ a.column⟩

/-- Closes what a marker at the given column closes: all that stands further right, and positions at
that column. -/
def closeItem (ancestors : Ancestors) (column : Nat) : Ancestors :=
  ⟨ancestors.chain.dropWhile fun a => column < a.column || column == a.column && a.segment.isIndex⟩

/-- The column of the innermost ancestor. -/
def column? (ancestors : Ancestors) : Option Nat :=
  ancestors.chain.head?.map Ancestor.column

/-- Whether the outermost ancestors spell the path. -/
def startsWith (ancestors : Ancestors) (path : Path) : Bool :=
  ancestors.path.startsWith path

@[simp] theorem path_push (ancestors : Ancestors) (segment : Segment) (column : Nat) :
    (ancestors.push segment column).path = ancestors.path.child segment := by
  simp [path, outermostFirst, push, Path.child]

@[simp] theorem length_path (ancestors : Ancestors) :
    ancestors.path.length = ancestors.chain.length := by
  simp [path, outermostFirst]

end Ancestors

end YamlIndex
