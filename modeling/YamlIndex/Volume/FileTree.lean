/-!
# Trees of files

A tree of files is a file with its contents, or a directory with named trees below it.  A file holds
text, or octets that are no text.

A name below a directory occurs once.  Writing makes the directories on the way.

## Main results

* `find?_write`: what was written is found again.
-/

namespace YamlIndex

/-- What a file holds. -/
inductive Contents where
  | text (s : String)
  /-- Octets that are not the encoding of a text. -/
  | binary (octets : List UInt8)
  deriving DecidableEq, Repr

namespace Contents

/-- The contents with the given octets. -/
def ofOctets (octets : List UInt8) : Contents :=
  match String.fromUTF8? ⟨octets.toArray⟩ with
  | some s => text s
  | none => binary octets

/-- The number of octets. -/
def size : Contents → Nat
  | text s => s.utf8ByteSize
  | binary octets => octets.length

/-- The text, if the contents are one. -/
def text? : Contents → Option String
  | text s => some s
  | binary _ => none

end Contents

/-- A file, or a directory with what is below it. -/
inductive FileTree where
  | file (contents : Contents)
  | directory (entries : List (String × FileTree))
  deriving Repr, Inhabited

namespace FileTree

/-- The directory without entries. -/
def empty : FileTree :=
  directory []

/-- The entries of a directory; a file has none. -/
def entries : FileTree → List (String × FileTree)
  | file _ => []
  | directory entries => entries

/-- What stands under a name of a directory. -/
def child? (tree : FileTree) (name : String) : Option FileTree :=
  match tree with
  | file _ => none
  | directory entries => entries.lookup name

/-- What the names lead to. -/
def find? : FileTree → List String → Option FileTree
  | tree, [] => some tree
  | tree, name :: rest => (tree.child? name).bind fun child => child.find? rest

/-- Whether the tree is a directory. -/
def isDirectory : FileTree → Bool
  | file _ => false
  | directory _ => true

/-- The entries with another tree under a name. -/
def setEntry (name : String) (tree : FileTree) : List (String × FileTree) → List (String × FileTree)
  | [] => [(name, tree)]
  | (other, old) :: rest =>
    if other = name then (name, tree) :: rest else (other, old) :: setEntry name tree rest

/-- The tree with another one at a place; directories on the way are made, and a file on the way
becomes a directory. -/
def put : List String → FileTree → FileTree → FileTree
  | [], new, _ => new
  | name :: rest, new, tree =>
    let entries := match tree with
      | file _ => []
      | directory entries => entries
    directory (setEntry name (put rest new ((entries.lookup name).getD empty)) entries)

/-- The tree with a file written at a place. -/
def write (location : List String) (contents : Contents) (tree : FileTree) : FileTree :=
  put location (file contents) tree

/-- The tree with a directory made at a place, unless one is there. -/
def makeDirectory (location : List String) (tree : FileTree) : FileTree :=
  match tree.find? location with
  | some (directory _) => tree
  | _ => put location empty tree

/-- The tree without what stands at a place. -/
def remove : List String → FileTree → FileTree
  | [], tree => tree
  | name :: rest, tree =>
    match tree with
    | file _ => tree
    | directory entries =>
      match rest with
      | [] => directory (entries.filter fun entry => entry.1 != name)
      | _ :: _ =>
        match entries.lookup name with
        | none => tree
        | some child => directory (setEntry name (child.remove rest) entries)

theorem lookup_setEntry (name : String) (tree : FileTree) (entries : List (String × FileTree)) :
    (setEntry name tree entries).lookup name = some tree := by
  induction entries with
  | nil => simp [setEntry]
  | cons entry entries ih =>
    obtain ⟨other, old⟩ := entry
    by_cases h : other = name
    · simp [setEntry, h]
    · have : (name == other) = false := by simp [Ne.symm h]
      simp [setEntry, h, List.lookup_cons, this, ih]

theorem find?_put (location : List String) (new tree : FileTree) :
    (put location new tree).find? location = some new := by
  induction location generalizing tree with
  | nil => rfl
  | cons name rest ih => simp [put, find?, child?, lookup_setEntry, ih]

theorem find?_write (location : List String) (contents : Contents) (tree : FileTree) :
    (tree.write location contents).find? location = some (file contents) :=
  find?_put location (file contents) tree

end FileTree

end YamlIndex
