import YamlIndex.Node
import YamlIndex.Yaml.Scalar
import YamlIndex.Yaml.Tree

/-!
# What a written tree means

Scalars become nulls, truth values, numbers and texts, by their spelling or by their tag; aliases
become copies of the nodes they stand for.  A mapping must not have the same key twice.  Copies may
nest, so the depth is counted here too, and a document may not follow more than a hundred aliases
for each node it is written with.

A tag of the document's own, one that begins with an exclamation mark, is kept around the value,
which is read as if it had none.  So a key with such a tag differs from the same key without it.
-/

namespace YamlIndex.Yaml

/-- What a node of a document means. -/
inductive Value where
  | null
  | bool (b : Bool)
  | number (n : Number)
  | text (s : List Char)
  | sequence (items : List Value)
  /-- Each key once. -/
  | mapping (members : List (Value × Value))
  | tagged (tag : String) (value : Value)
  deriving Repr, Inhabited

namespace Value

/-! ## Equality of keys -/

mutual

/-- Whether two values are the same key.  The order of the members of a mapping does not matter. -/
def same : Value → Value → Bool
  | .null, .null => true
  | .bool a, .bool b => a == b
  | .number m, .number n => m.same n
  | .text s, .text t => s == t
  | .sequence xs, .sequence ys => sameItems xs ys
  | .mapping ms, .mapping ns => ms.length == ns.length && sameMembers ms ns
  | .tagged s v, .tagged t w => s == t && v.same w
  | _, _ => false

/-- Whether two sequences have the same elements. -/
def sameItems : List Value → List Value → Bool
  | [], [] => true
  | x :: xs, y :: ys => x.same y && sameItems xs ys
  | _, _ => false

/-- Whether all members of the first mapping are members of the second. -/
def sameMembers : List (Value × Value) → List (Value × Value) → Bool
  | [], _ => true
  | (key, value) :: rest, others =>
    others.any (fun other => key.same other.1 && value.same other.2) && sameMembers rest others

end

/-! ## Scalars -/

/-- The value of a plain scalar by its spelling; none for an integer that is too wide. -/
def ofPlain? (s : List Char) : Option Value :=
  if s.isEmpty || isNull s then some .null
  else if hasTooManyDigits s then some (.text s)
  else
    match bool? s, readInteger s with
    | some b, _ => some (.bool b)
    | none, .number n => some (.number n)
    | none, .tooWide => none
    | none, .notOne =>
      if hasIdleZero s then some (.text s)
      else some (((real? s).map fun x => .number (.real x)).getD (.text s))

/-- The tags that say what a scalar is. -/
inductive CoreTag where
  | bool
  | int
  | float
  | null
  deriving DecidableEq, Repr

/-- The core tag that a tag is. -/
def coreTag? (tag : Octets) : Option CoreTag :=
  let named (name : String) : Bool := tag == Octets.ofAscii ("tag:yaml.org,2002:" ++ name).toList
  if named "bool" then some .bool
  else if named "int" then some .int
  else if named "float" then some .float
  else if named "null" then some .null
  else none

/-- Whether a tag begins with an exclamation mark. -/
def isOwn (tag : Octets) : Bool :=
  tag.head? == some 0x21

/-- A text without the exclamation mark that opens it, unless that is all there is. -/
def unmarked : Octets → Octets
  | 0x21 :: o :: rest => o :: rest
  | octets => octets

/-- The name of a tag of the document's own.  One further exclamation mark at its start does not
count. -/
def ownName? (tag : Octets) : Option String :=
  if isOwn tag then String.fromUTF8? ⟨(unmarked (unmarked tag)).toArray⟩ else none

/-- The value of a scalar with a core tag; none when its spelling does not fit. -/
def ofCore? (tag : CoreTag) (s : List Char) : Option Value :=
  match tag with
  | .bool => (bool? s).map .bool
  | .int =>
    match readInteger s with
    | .number n => some (.number n)
    | _ => none
  | .float => (real? s).map fun x => .number (.real x)
  | .null => if isNull s then some .null else none

/-- The value of a scalar, by its spelling where it is plain and no foreign tag says otherwise. -/
def ofScalar? (tag : Option Octets) (style : Style) (s : List Char) : Option Value :=
  match tag.bind coreTag? with
  | some core => ofCore? core s
  | none => if style = .plain && tag.all isOwn then ofPlain? s else some (.text s)

/-! ## Whole trees -/

/-- A computation that may follow only so many more aliases, and may fail. -/
abbrev Following := StateT Nat Option

/-- The node that a tree stands for, given the targets of aliases. -/
def follow (targets : List (Nat × Tree)) (tree : Tree) : Following Tree := do
  match tree with
  | .alias n =>
    match ← get with
    | 0 => failure
    | left + 1 =>
      set left
      targets.lookup n
  | _ => return tree

/-- The value with the name of its tag around it, if the tag is one of the document's own. -/
def withTag (tag : Option Octets) (value : Value) : Value :=
  match tag.bind ownName? with
  | none => value
  | some name => .tagged name value

/-- Adds a member to those of a mapping, which are in reverse; fails if it has the key. -/
def addMember (key : Value) (value : Following Value) (sofar : List (Value × Value)) :
    Following (List (Value × Value)) := do
  if sofar.any fun member => member.1.same key then failure else return (key, ← value) :: sofar

/-- The value of a tree with at most the given number of levels of collections. -/
def ofTree (targets : List (Nat × Tree)) : Nat → Tree → Following Value
  | depth, tree => do
    match ← follow targets tree with
    | .alias _ => failure
    | .scalar properties style s =>
      return withTag properties.tag (← ofScalar? properties.tag style s)
    | .sequence properties items =>
      match depth with
      | 0 => failure
      | depth + 1 =>
        return withTag properties.tag (.sequence (← items.mapM (ofTree targets depth)))
    | .mapping properties members =>
      match depth with
      | 0 => failure
      | depth + 1 =>
        let members ← members.foldlM
          (fun sofar member => do
            let key ← ofTree targets depth member.1
            addMember key (ofTree targets depth member.2) sofar)
          []
        return withTag properties.tag (.mapping members.reverse)

/-- The value of a document. -/
def ofDocument? (root : Option Tree) : Option Value :=
  match root with
  | none => some .null
  | some root => do
    let (value, _) ← (ofTree root.targets maxDepth root).run (100 * root.size)
    return value

/-! ## Nodes of an outline -/

/-- The text of a value that is none of the collections. -/
def text? : Value → Option String
  | .null => some "null"
  | .bool b => some (if b then "true" else "false")
  | .number n => some (String.ofList n.text)
  | .text s => some (String.ofList s)
  | .sequence _ => none
  | .mapping _ => none
  | .tagged _ value => value.text?

mutual

/-- The node for a value.  Tags are dropped; so are members whose keys are collections, for no path
leads to them. -/
def node : Value → Node
  | .null => .null
  | .bool b => .scalar (if b then "true" else "false")
  | .number n => .scalar (String.ofList n.text)
  | .text s => .scalar (String.ofList s)
  | .sequence items => .sequence (nodes items)
  | .mapping members => .mapping (namedNodes members)
  | .tagged _ value => value.node

/-- The nodes for the elements of a sequence. -/
def nodes : List Value → List Node
  | [] => []
  | item :: rest => item.node :: nodes rest

/-- The nodes for the members of a mapping, with the texts of their keys. -/
def namedNodes : List (Value × Value) → List (String × Node)
  | [] => []
  | (key, value) :: rest =>
    match key.text? with
    | some name => (name, value.node) :: namedNodes rest
    | none => namedNodes rest

end

end Value

/-- Reads the text of a document. -/
def read : Reader := fun text => do
  let root ← Tree.ofText? text.toList
  return (← Value.ofDocument? root).node

end YamlIndex.Yaml
