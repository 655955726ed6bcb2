import Mathlib.Data.List.Basic
import Mathlib.Data.List.Forall2
import YamlIndex.Node

/-!
# The nodes of an outline

An outline lists the nodes of a tree, and what the nodes of a tree are is said here without it.  A
node is found by its *address*, the numbers of the children on the way down from the root; the
segments on this way are its path.  Two members of a mapping may have one key, so the path does not
tell nodes apart, but the address does.  The order of addresses as lists of numbers is pre-order: an
address comes before all that go on from it, and these come before the address of the next child.

The outline is made with a position that is handed down, and each kind of child does something else
with it: an element replaces it, a member keeps it for itself and drops it for what is below.  What
is handed down is always the position that the path ends in (`outlineBelow_eq`), and so the position
of an entry is that of the last two segments of its path.

## Main results

* `mem_descendants_iff`, `pairwise_descendants`: the nodes below a node, by their addresses and in
  pre-order.
* `outlineBelow_eq_map`: the outline goes through the nodes below.
* `outline_lists_nodes`: the outline has one entry for each node but the root, in document order.
-/

namespace YamlIndex

namespace Path

/-- The position that a path ends in, if it ends in one. -/
def lastIndex? (path : Path) : Option Nat :=
  path.getLast?.bind Segment.index?

theorem lastIndex?_child (path : Path) (segment : Segment) :
    (path.child segment).lastIndex? = segment.index? := by
  unfold lastIndex? child
  rw [List.getLast?_concat, Option.bind_some]

/-- The position of a path is the one it ends in, or else the one in front of its last segment. -/
theorem itemPosition_child (path : Path) (segment : Segment) :
    (path.child segment).itemPosition = segment.index?.or path.lastIndex? := by
  unfold itemPosition child lastIndex?
  rw [List.reverse_append, ← List.head?_reverse]
  cases path.reverse with
  | nil => cases segment <;> rfl
  | cons last rest => cases segment <;> cases last <;> rfl

end Path

namespace Node

/-! ## Children and addresses -/

/-- The children of a node with the segments that lead to them, in document order: elements by their
positions, counted from one, and members by their keys. -/
def children : Node → List (Segment × Node)
  | null => []
  | scalar _ => []
  | sequence items => (items.zipIdx 1).map fun item => (.index item.2, item.1)
  | mapping members => members.map fun member => (.key member.1, member.2)

/-- The node at an address, and the path that leads to it. -/
def follow? : Node → List Nat → Option (Path × Node)
  | node, [] => some ([], node)
  | node, number :: rest =>
    node.children[number]?.bind fun child =>
      (child.2.follow? rest).map fun found => (child.1 :: found.1, found.2)

theorem sizeOf_lt_of_mem_children {node : Node} {child : Segment × Node}
    (h : child ∈ node.children) : sizeOf child.2 < sizeOf node := by
  cases node with
  | null => exact absurd h List.not_mem_nil
  | scalar text => exact absurd h List.not_mem_nil
  | sequence items =>
      obtain ⟨item, hItem, rfl⟩ := List.mem_map.mp h
      have hSize := List.sizeOf_lt_of_mem (List.fst_mem_of_mem_zipIdx hItem)
      simp only [sequence.sizeOf_spec]
      omega
  | mapping members =>
      obtain ⟨⟨key, inner⟩, hMember, rfl⟩ := List.mem_map.mp h
      have hSize := List.sizeOf_lt_of_mem hMember
      simp only [mapping.sizeOf_spec, Prod.mk.sizeOf_spec] at hSize ⊢
      omega

/-- Induction over a tree: a node is settled once its children are. -/
theorem induction_children {motive : Node → Prop}
    (h : ∀ node, (∀ child ∈ node.children, motive child.2) → motive node) (node : Node) :
    motive node :=
  h node fun child hChild =>
    have := sizeOf_lt_of_mem_children hChild
    induction_children h child.2
termination_by sizeOf node

end Node

/-! ## The nodes below a node -/

/-- A node with the way that leads to it from a node above. -/
structure Located where
  /-- The numbers of the children on the way, counted from zero. -/
  address : List Nat
  /-- The segments on the way. -/
  path : Path
  node : Node

namespace Located

/-- The node as seen from one level further up. -/
def under (number : Nat) (segment : Segment) (located : Located) : Located :=
  ⟨number :: located.address, segment :: located.path, located.node⟩

/-- The entry lists the node: with its path, its text just if it is a scalar, and the position in
the last two segments of the path. -/
structure IsListedBy (located : Located) (entry : OutlineEntry) : Prop where
  path : entry.path = located.path
  value : ∀ text, entry.value = some text ↔ located.node = .scalar text
  position : entry.position = entry.path.itemPosition
  isItem : entry.isItem = entry.position.isSome

end Located

namespace Node

/-- The nodes below a node, each child in front of what is below it. -/
def descendants (node : Node) : List Located :=
  node.children.zipIdx.attach.flatMap fun ⟨((segment, child), number), hChild⟩ =>
    have := sizeOf_lt_of_mem_children (List.fst_mem_of_mem_zipIdx hChild)
    ⟨[number], [segment], child⟩ :: child.descendants.map (.under number segment)
termination_by sizeOf node

theorem descendants_eq (node : Node) :
    node.descendants = node.children.zipIdx.flatMap fun child =>
      ⟨[child.2], [child.1.1], child.1.2⟩ ::
        child.1.2.descendants.map (.under child.2 child.1.1) := by
  rw [descendants, List.flatMap_subtype]
  · rw [List.unattach_attach]
  · intro child hChild
    rfl

/-- A node is below another one just if it stands at an address other than the empty one. -/
theorem mem_descendants_iff {node : Node} {located : Located} :
    located ∈ node.descendants ↔ located.address ≠ [] ∧
      node.follow? located.address = some (located.path, located.node) := by
  induction node using induction_children generalizing located with
  | h node ih =>
      obtain ⟨address, path, inner⟩ := located
      rw [descendants_eq, List.mem_flatMap]
      constructor
      · rintro ⟨⟨⟨segment, child⟩, number⟩, hChild, hLocated⟩
        have hAt := List.mem_zipIdx_iff_getElem?.mp hChild
        rcases List.mem_cons.mp hLocated with hSelf | hBelow
        · cases hSelf
          exact ⟨by simp, by simp [follow?, hAt]⟩
        · obtain ⟨lower, hLower, hEq⟩ := List.mem_map.mp hBelow
          cases hEq
          have hIn := List.fst_mem_of_mem_zipIdx hChild
          obtain ⟨-, hFollow⟩ := (ih _ hIn).mp hLower
          exact ⟨by simp, by simp [follow?, hAt, hFollow]⟩
      · rintro ⟨hNe, hFollow⟩
        obtain ⟨number, rest, rfl⟩ := List.exists_cons_of_ne_nil hNe
        rw [follow?, Option.bind_eq_some_iff] at hFollow
        obtain ⟨⟨segment, child⟩, hAt, hFollow⟩ := hFollow
        obtain ⟨⟨below, found⟩, hRest, hEq⟩ := Option.map_eq_some_iff.mp hFollow
        obtain ⟨rfl, rfl⟩ := Prod.mk.inj hEq
        refine ⟨((segment, child), number), List.mem_zipIdx_iff_getElem?.mpr hAt, ?_⟩
        cases rest with
        | nil =>
            cases hRest
            exact List.mem_cons_self
        | cons next rest =>
            have hLower : ⟨next :: rest, below, found⟩ ∈ child.descendants :=
              (ih _ (List.mem_of_getElem? hAt)).mpr ⟨by simp, hRest⟩
            exact List.mem_cons_of_mem _ (List.mem_map.mpr ⟨_, hLower, rfl⟩)

theorem pairwise_snd_zipIdx {α : Type} (xs : List α) (start : Nat) :
    (xs.zipIdx start).Pairwise fun a b => a.2 < b.2 := by
  induction xs generalizing start with
  | nil => exact .nil
  | cons x xs ih =>
      exact List.pairwise_cons.mpr ⟨fun b hb => List.le_snd_of_mem_zipIdx hb, ih (start + 1)⟩

/-- The nodes below a node come in pre-order. -/
theorem pairwise_descendants (node : Node) :
    node.descendants.Pairwise fun a b => a.address < b.address := by
  induction node using induction_children with
  | h node ih =>
      -- all addresses of one child begin with its number
      have hFirst : ∀ child : (Segment × Node) × Nat, ∀ located ∈
          (⟨[child.2], [child.1.1], child.1.2⟩ ::
            child.1.2.descendants.map (.under child.2 child.1.1) : List Located),
          ∃ rest, located.address = child.2 :: rest := by
        intro child located hLocated
        rcases List.mem_cons.mp hLocated with rfl | hBelow
        · exact ⟨[], rfl⟩
        · obtain ⟨lower, -, rfl⟩ := List.mem_map.mp hBelow
          exact ⟨lower.address, rfl⟩
      rw [descendants_eq, List.pairwise_flatMap]
      constructor
      · intro child hChild
        refine List.pairwise_cons.mpr ⟨fun located hLocated => ?_, ?_⟩
        · obtain ⟨lower, hLower, rfl⟩ := List.mem_map.mp hLocated
          obtain ⟨first, rest, hCons⟩ :=
            List.exists_cons_of_ne_nil (mem_descendants_iff.mp hLower).1
          show [child.2] < child.2 :: lower.address
          rw [hCons]
          exact List.cons_lt_cons_iff.mpr (.inr ⟨rfl, List.nil_lt_cons first rest⟩)
        · refine List.pairwise_map.mpr ((ih _ (List.fst_mem_of_mem_zipIdx hChild)).imp ?_)
          intro a b hLess
          exact List.cons_lt_cons_iff.mpr (.inr ⟨rfl, hLess⟩)
      · refine (pairwise_snd_zipIdx node.children 0).imp fun {first second} hLess => ?_
        intro a ha b hb
        obtain ⟨restA, hA⟩ := hFirst first a ha
        obtain ⟨restB, hB⟩ := hFirst second b hb
        rw [hA, hB]
        exact List.cons_lt_cons_iff.mpr (.inl hLess)

/-! ## The outline -/

/-- The entry of a node at a path. -/
def entryAt (path : Path) (node : Node) : OutlineEntry :=
  ⟨path, node.text?, path.itemPosition⟩

/-- The entries of a child of the node at a path. -/
def childEntries (path : Path) (child : Segment × Node) : List OutlineEntry :=
  entryAt (path.child child.1) child.2 ::
    child.2.outlineBelow (path.child child.1) (path.child child.1).lastIndex?

theorem outlineItems_eq (path : Path) (position : Nat) (items : List Node) :
    outlineItems path position items =
      ((items.zipIdx position).map fun item => (.index item.2, item.1)).flatMap
        (childEntries path) := by
  induction items generalizing position with
  | nil => rfl
  | cons item rest ih =>
      rw [outlineItems, ih, List.zipIdx_cons, List.map_cons, List.flatMap_cons, childEntries,
        entryAt, Path.lastIndex?_child, Path.itemPosition_child_index]
      rfl

theorem outlineMembers_eq (path : Path) (members : List (String × Node)) :
    outlineMembers path path.lastIndex? members =
      (members.map fun member => (.key member.1, member.2)).flatMap (childEntries path) := by
  induction members with
  | nil => rfl
  | cons member rest ih =>
      rw [outlineMembers, ih, List.map_cons, List.flatMap_cons, childEntries, entryAt,
        Path.lastIndex?_child, Path.itemPosition_child]
      rfl

/-- With the position that the path ends in, the outline goes from child to child in the same way,
whether they are elements or members. -/
theorem outlineBelow_eq (path : Path) (node : Node) :
    node.outlineBelow path path.lastIndex? = node.children.flatMap (childEntries path) := by
  cases node with
  | null => rfl
  | scalar text => rfl
  | sequence items => exact outlineItems_eq path 1 items
  | mapping members => exact outlineMembers_eq path members

/-- The outline goes through the nodes below. -/
theorem outlineBelow_eq_map (path : Path) (node : Node) :
    node.outlineBelow path path.lastIndex? =
      node.descendants.map fun located => entryAt (path ++ located.path) located.node := by
  induction node using induction_children generalizing path with
  | h node ih =>
      rw [outlineBelow_eq, descendants_eq, List.map_flatMap]
      conv_lhs => rw [← List.zipIdx_map_fst 0 node.children, List.flatMap_map]
      refine List.flatMap_congr fun child hChild => ?_
      rw [childEntries, ih _ (List.fst_mem_of_mem_zipIdx hChild), List.map_cons, List.map_map]
      refine congrArg _ (List.map_congr_left fun located _ => ?_)
      show entryAt (path ++ [child.1.1] ++ located.path) located.node = _
      rw [List.append_assoc]
      rfl

theorem text?_eq_some_iff {node : Node} {text : String} :
    node.text? = some text ↔ node = .scalar text := by
  cases node <;> simp [text?]

/-- The entry of a node lists it. -/
theorem isListedBy_entryAt (located : Located) :
    located.IsListedBy (entryAt located.path located.node) where
  path := rfl
  value _ := text?_eq_some_iff
  position := rfl
  isItem := rfl

/-- **An outline lists the nodes of its tree.**  There is one entry for each address but the empty
one, in pre-order.  It has the path that leads to the node, a value just if the node is a scalar,
and then its text, and the position that is found in the last two segments of the path. -/
theorem outline_lists_nodes (root : Node) :
    ∃ nodes : List Located,
      (nodes.Pairwise fun a b => a.address < b.address) ∧
      (∀ located, located ∈ nodes ↔ located.address ≠ [] ∧
        root.follow? located.address = some (located.path, located.node)) ∧
      List.Forall₂ Located.IsListedBy nodes root.outline := by
  refine ⟨root.descendants, pairwise_descendants root, fun _ => mem_descendants_iff, ?_⟩
  have hOutline : root.outline =
      root.descendants.map fun located => entryAt located.path located.node :=
    outlineBelow_eq_map [] root
  rw [hOutline, List.forall₂_map_right_iff, List.forall₂_same]
  exact fun located _ => isListedBy_entryAt located

/-- The members of one key have one path, and each has an entry of its own. -/
example :
    (mapping [("a", .scalar "1"), ("a", .sequence [.scalar "2"])]).outline.map OutlineEntry.path =
      [[.key "a"], [.key "a"], [.key "a", .index 1]] := rfl

end Node

end YamlIndex
