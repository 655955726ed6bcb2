import YamlIndex.Proofs.Layout.Paths
import YamlIndex.Proofs.Matching

/-!
# Indentation and tree agree

On a block layout of a tree the scan by indentation finds the nodes of the tree, and the outline of
the tree is tied to the very lines on which the scan finds them.  The outline has one entry that no
line stands for, that of an element which is a mapping: its line belongs to its first key.

The scan goes through the lines without knowing the tree, and the association through keys without
looking at the indentation.  They meet in `linedBelow`: the paths of the scan are these by
`Scan.map_path_steps`, those of the outline by `map_path_filter_outline`, and once the paths agree
so do the keys they end in, which is all that the association asks for.

## Main results

* `map_path_filter_outline`: the outline without elements that are mappings.
* `scan_agrees_with_tree`: both ways to index a block layout agree.
-/

namespace YamlIndex

namespace Node

/-! ## Nodes by their paths -/

/-- The node that one segment leads to. -/
def child? : Node → Segment → Option Node
  | mapping members, .key name => members.lookup name
  | sequence items, .index position => if position = 0 then none else items[position - 1]?
  | _, _ => none

/-- The node that a path leads to. -/
def find? : Node → Path → Option Node
  | node, [] => some node
  | node, segment :: rest => (node.child? segment).bind fun child => child.find? rest

theorem find?_append (node : Node) (path rest : Path) :
    node.find? (path ++ rest) = (node.find? path).bind fun inner => inner.find? rest := by
  induction path generalizing node with
  | nil => rfl
  | cons segment path ih =>
      rw [List.cons_append, find?, find?]
      cases node.child? segment with
      | none => rfl
      | some child => exact ih child

theorem find?_child {root node : Node} {path : Path} (h : root.find? path = some node)
    (segment : Segment) : root.find? (path.child segment) = node.child? segment := by
  rw [Path.child, find?_append, h, Option.bind_some, find?]
  cases node.child? segment with
  | none => rfl
  | some child => rfl

theorem lookup_of_nodup {members : List (String × Node)} (h : (members.map Prod.fst).Nodup)
    {key : String} {child : Node} (hMem : (key, child) ∈ members) :
    members.lookup key = some child := by
  induction members with
  | nil => exact absurd hMem (by simp)
  | cons member members ih =>
      obtain ⟨name, node⟩ := member
      rw [List.map_cons, List.nodup_cons] at h
      rcases List.mem_cons.mp hMem with hEq | hTail
      · rw [Prod.mk.injEq] at hEq
        rw [List.lookup_cons, hEq.1, hEq.2, beq_self_eq_true]
      · have hIn : key ∈ members.map Prod.fst := List.mem_map.mpr ⟨_, hTail, rfl⟩
        have hNe : key ≠ name := by
          rintro rfl
          exact h.1 hIn
        rw [List.lookup_cons, beq_eq_false_iff_ne.mpr hNe]
        exact ih h.2 hTail

theorem find?_member {root : Node} {path : Path} {members : List (String × Node)}
    (hFind : root.find? path = some (mapping members)) (h : (members.map Prod.fst).Nodup)
    {key : String} {child : Node} (hMem : (key, child) ∈ members) :
    root.find? (path.child (.key key)) = some child := by
  rw [find?_child hFind, child?]
  exact lookup_of_nodup h hMem

/-! ## Entries with a line of their own -/

/-- Whether a block layout has a line for the entry of an outline: always, unless it is an element
that is a mapping. -/
def hasLine (root : Node) (entry : OutlineEntry) : Bool :=
  entry.key?.isSome || !(root.find? entry.path).any isMapping

theorem hasLine_key (root : Node) (path : Path) (name : String) (value : Option String)
    (position : Option Nat) : root.hasLine ⟨path.child (.key name), value, position⟩ = true := by
  have hKey : OutlineEntry.key? ⟨path.child (.key name), value, position⟩ = some name :=
    Path.lastKey?_child path (.key name)
  rw [hasLine, hKey]
  rfl

theorem hasLine_index {root item : Node} {path : Path} {n : Nat}
    (h : root.find? (path.child (.index n)) = some item) (value : Option String)
    (position : Option Nat) :
    root.hasLine ⟨path.child (.index n), value, position⟩ = !item.isMapping := by
  have hKey : OutlineEntry.key? ⟨path.child (.index n), value, position⟩ = none :=
    Path.lastKey?_child path (.index n)
  rw [hasLine, hKey, h]
  rfl

/-- The paths in an outline that have a line of their own in a layout of the root. -/
def ownPaths (root : Node) (outline : List OutlineEntry) : List Path :=
  (outline.filter root.hasLine).map OutlineEntry.path

theorem ownPaths_append (root : Node) (front back : List OutlineEntry) :
    root.ownPaths (front ++ back) = root.ownPaths front ++ root.ownPaths back := by
  rw [ownPaths, List.filter_append, List.map_append]
  rfl

mutual

theorem ownPaths_below {root : Node} (node : Node) {path : Path} (hPlain : node.IsPlain)
    (hFind : root.find? path = some node) (position : Option Nat) :
    root.ownPaths (node.outlineBelow path position) = node.linedBelow path := by
  cases node with
  | null => rfl
  | scalar text => rfl
  | sequence items =>
      rw [IsPlain] at hPlain
      rw [outlineBelow, linedBelow]
      refine ownPaths_items items 1 hPlain.2 fun i item hItem => ?_
      rw [find?_child hFind, child?, if_neg (by omega), Nat.add_sub_cancel_left]
      exact hItem
  | mapping members =>
      rw [IsPlain] at hPlain
      rw [outlineBelow, linedBelow]
      exact ownPaths_members members hPlain.2.2 (fun _ _ => find?_member hFind hPlain.2.1) position

theorem ownPaths_item {root : Node} (item : Node) {path : Path} (hPlain : item.IsPlainItem)
    (hFind : root.find? path = some item) (position : Option Nat) :
    root.ownPaths (item.outlineBelow path position) = item.linedBelow path := by
  cases item with
  | null => rfl
  | scalar text => rfl
  | sequence items =>
      rw [IsPlainItem] at hPlain
      exact hPlain.elim
  | mapping members =>
      rw [IsPlainItem] at hPlain
      rw [outlineBelow, linedBelow]
      exact ownPaths_members members hPlain.2.2 (fun _ _ => find?_member hFind hPlain.2.1) position

theorem ownPaths_items {root : Node} (items : List Node) (position : Nat) {path : Path}
    (hPlain : ArePlainItems items)
    (hFind : ∀ i item, items[i]? = some item →
      root.find? (path.child (.index (position + i))) = some item) :
    root.ownPaths (outlineItems path position items) = linedItems path position items := by
  cases items with
  | nil => rfl
  | cons item rest =>
      rw [ArePlainItems] at hPlain
      have hItem : root.find? (path.child (.index position)) = some item := hFind 0 item rfl
      have hRest : ∀ i other, rest[i]? = some other →
          root.find? (path.child (.index (position + 1 + i))) = some other := by
        intro i other hOther
        rw [Nat.add_assoc, Nat.add_comm 1 i]
        exact hFind (i + 1) other hOther
      have hOwn : root.ownPaths [⟨path.child (.index position), item.text?, some position⟩] =
          if item.isMapping then [] else [path.child (.index position)] := by
        rw [ownPaths, List.filter_cons, hasLine_index hItem]
        cases item.isMapping with
        | false => rfl
        | true => rfl
      show root.ownPaths ([_] ++ (_ ++ _)) = _
      rw [ownPaths_append, ownPaths_append, hOwn,
        ownPaths_item item hPlain.1 hItem (some position),
        ownPaths_items rest (position + 1) hPlain.2 hRest]
      rfl

theorem ownPaths_members {root : Node} (members : List (String × Node)) {path : Path}
    (hPlain : ArePlainMembers members)
    (hFind : ∀ key child, (key, child) ∈ members →
      root.find? (path.child (.key key)) = some child) (position : Option Nat) :
    root.ownPaths (outlineMembers path position members) = linedMembers path members := by
  cases members with
  | nil => rfl
  | cons member rest =>
      obtain ⟨key, child⟩ := member
      rw [ArePlainMembers] at hPlain
      have hOwn : root.ownPaths [⟨path.child (.key key), child.text?, position⟩] =
          [path.child (.key key)] := by
        rw [ownPaths, List.filter_cons_of_pos (hasLine_key root path key _ _)]
        rfl
      show root.ownPaths ([_] ++ (_ ++ _)) = _
      rw [ownPaths_append, ownPaths_append, hOwn,
        ownPaths_below child hPlain.2.1 (hFind key child (by simp)) none,
        ownPaths_members rest hPlain.2.2
          (fun name other hMem => hFind name other (List.mem_cons_of_mem _ hMem)) position]
      rfl

end

/-- The outline of a plain tree, without the elements that are mappings, goes through the nodes with
a line of their own. -/
theorem map_path_filter_outline {root : Node} (hPlain : root.IsPlain) :
    (root.outline.filter root.hasLine).map OutlineEntry.path = root.linedBelow [] :=
  ownPaths_below root hPlain rfl none

/-- Entries that end in a key have a line. -/
theorem filterMap_key?_filter_hasLine (root : Node) (outline : List OutlineEntry) :
    (outline.filter root.hasLine).filterMap OutlineEntry.key? =
      outline.filterMap OutlineEntry.key? := by
  rw [List.filterMap_filter]
  refine congrArg (List.filterMap · outline) (funext fun entry => ?_)
  rw [hasLine]
  cases entry.key? <;> simp

end Node

/-! ## Agreement -/

/-- Whether the entry is that of a key, and not that of an element without one. -/
def PathEntry.isKeyed (entry : PathEntry) : Bool :=
  entry.path.lastKey?.isSome

/-- What an entry says of its line. -/
def PathEntry.place (entry : PathEntry) : Nat × String × String × Path :=
  (entry.line, entry.key, entry.text, entry.path)

/-- The text of the last segment of a path. -/
def Path.lastText (path : Path) : String :=
  (path.getLast?.map Segment.text).getD ""

theorem Path.lastText_of_lastKey? {path : Path} {key : String} (h : path.lastKey? = some key) :
    path.lastText = key := by
  rw [Path.lastKey?, Option.bind_eq_some_iff] at h
  obtain ⟨segment, hLast, hKey⟩ := h
  rw [Path.lastText, hLast]
  cases segment with
  | key name =>
      rw [Segment.key?, Option.some.injEq] at hKey
      exact hKey
  | index n => exact absurd hKey (by simp [Segment.key?])

namespace Scan

/-- The steps of the lines with a key. -/
def keyedSteps (lines : List String) : List Step :=
  (steps lines).filter fun step => step.key.isSome

theorem filter_isKeyed_scanPaths (lines : List String) :
    (scanPaths lines).filter PathEntry.isKeyed = (keyedSteps lines).map Step.entry := by
  rw [scanPaths, List.filter_map, keyedSteps]
  refine congrArg (List.map Step.entry) (List.filter_congr fun step hStep => ?_)
  rw [Function.comp_apply, PathEntry.isKeyed, ← lastKey?_of_mem_steps hStep]
  rfl

theorem map_keyedSteps (lines : List String) {α : Type} (f : String × Nat → α) :
    (keyedLines lines).map (fun line => f line.2) =
      (keyedSteps lines).map fun step => f (step.raw, step.number) := by
  rw [← keyed_steps, keyedSteps]
  induction steps lines with
  | nil => rfl
  | cons step rest ih =>
      cases hKey : step.key with
      | none => simpa [keyedStep?, hKey] using ih
      | some key => simpa [keyedStep?, hKey] using ih

end Scan

section Agreement

variable {root : Node} {lines : List String}

theorem map_path_scanPaths (hPlain : root.IsPlain) (hBlock : IsBlock root lines) :
    (scanPaths lines).map PathEntry.path =
      (root.outline.filter root.hasLine).map OutlineEntry.path := by
  rw [scanPaths, List.map_map, Node.map_path_filter_outline hPlain,
    ← Scan.map_path_steps hPlain hBlock]
  rfl

/-- The lines of a block layout carry the keys of the outline. -/
theorem map_fst_keyedLines (hPlain : root.IsPlain) (hBlock : IsBlock root lines) :
    (keyedLines lines).map Prod.fst = root.outline.filterMap OutlineEntry.key? := by
  have hSteps : (keyedLines lines).map Prod.fst =
      ((Scan.steps lines).map Step.path).filterMap Path.lastKey? := by
    rw [← Scan.keyed_steps, List.map_filterMap, List.filterMap_map]
    refine List.filterMap_congr fun step hStep => ?_
    rw [Function.comp_apply, Scan.lastKey?_of_mem_steps hStep, Scan.keyedStep?]
    cases step.key <;> rfl
  calc (keyedLines lines).map Prod.fst
      = ((Scan.steps lines).map Step.path).filterMap Path.lastKey? := hSteps
    _ = ((root.outline.filter root.hasLine).map OutlineEntry.path).filterMap Path.lastKey? := by
        rw [Scan.map_path_steps hPlain hBlock, Node.map_path_filter_outline hPlain]
    _ = (root.outline.filter root.hasLine).filterMap OutlineEntry.key? := by
        rw [List.filterMap_map]
        rfl
    _ = root.outline.filterMap OutlineEntry.key? :=
        Node.filterMap_key?_filter_hasLine root root.outline

/-- The entries that end in a key lead to the nodes that the scan finds on lines with a key. -/
theorem map_path_candidates (hPlain : root.IsPlain) (hBlock : IsBlock root lines) :
    (candidates root.outline).map (fun candidate => candidate.2.path) =
      (Scan.keyedSteps lines).map Step.path := by
  have hKeyed : (root.outline.filter fun entry => entry.key?.isSome) =
      (root.outline.filter root.hasLine).filter fun entry => entry.key?.isSome := by
    rw [List.filter_filter]
    refine List.filter_congr fun entry _ => ?_
    rw [Node.hasLine]
    cases entry.key?.isSome <;> rfl
  have hSteps : (Scan.keyedSteps lines).map Step.path =
      ((Scan.steps lines).map Step.path).filter fun path => path.lastKey?.isSome := by
    rw [List.filter_map, Scan.keyedSteps]
    refine congrArg (List.map Step.path) (List.filter_congr fun step hStep => ?_)
    rw [Function.comp_apply, Scan.lastKey?_of_mem_steps hStep]
  calc (candidates root.outline).map (fun candidate => candidate.2.path)
      = ((candidates root.outline).map Prod.snd).map OutlineEntry.path := by
        rw [List.map_map]
        rfl
    _ = ((root.outline.filter root.hasLine).filter fun entry => entry.key?.isSome).map
          OutlineEntry.path := by
        rw [candidates_map_snd, hKeyed]
    _ = ((root.outline.filter root.hasLine).map OutlineEntry.path).filter
          fun path => path.lastKey?.isSome := by
        rw [List.filter_map]
        rfl
    _ = (Scan.keyedSteps lines).map Step.path := by
        rw [hSteps, Scan.map_path_steps hPlain hBlock, Node.map_path_filter_outline hPlain]

/-- The association ties each line with a key to the node that the scan finds there. -/
theorem map_associate (hPlain : root.IsPlain) (hBlock : IsBlock root lines) :
    (associate root.outline lines).map (fun tied => (tied.line, tied.text, tied.entry.path)) =
      (Scan.keyedSteps lines).map fun step =>
        (step.number, Text.trimmed step.raw, step.path) := by
  let place (line : Nat × String) (path : Path) : Nat × String × Path := (line.1, line.2, path)
  have hLines := Scan.map_keyedSteps lines fun line => (line.2, Text.trimmed line.1)
  rw [associate_eq_zipWith (map_fst_keyedLines hPlain hBlock), List.map_zipWith]
  show List.zipWith (fun line candidate =>
    place ((fun line : KeyedLine => (line.2.2, Text.trimmed line.2.1)) line)
      ((fun candidate : Candidate => candidate.2.path) candidate)) _ _ = _
  rw [← List.zipWith_map, hLines, map_path_candidates hPlain hBlock, List.zipWith_map,
    List.zipWith_self]

end Agreement

theorem getD_treePaths? (root : Node) (lines : List String) :
    (treePaths? root lines).getD [] = (associate root.outline lines).map Tied.asPath := by
  rw [treePaths?, treeEntries?, ← List.filterMap_eq_map]
  cases associate root.outline lines with
  | nil => rfl
  | cons tied rest => rfl

/-- On a block layout of a plain tree the scan finds the nodes of the tree in document order,
without the elements that are mappings.  The association ties just the entries that end in a key,
each to the line where the scan finds it, and the index from the tree is the index by indentation on
those lines. -/
theorem scan_agrees_with_tree {root : Node} (hPlain : root.IsPlain) {lines : List String}
    (hBlock : IsBlock root lines) :
    (scanPaths lines).map PathEntry.path =
        (root.outline.filter root.hasLine).map OutlineEntry.path ∧
      (associate root.outline lines).map Tied.entry =
        (root.outline.filter fun entry => entry.key?.isSome) ∧
      (associate root.outline lines).map (fun tied => (tied.line, tied.text, tied.entry.path)) =
        ((scanPaths lines).filter PathEntry.isKeyed).map
          (fun entry => (entry.line, entry.text, entry.path)) ∧
      ((treePaths? root lines).getD []).map PathEntry.place =
        ((scanPaths lines).filter PathEntry.isKeyed).map PathEntry.place := by
  have hTied := map_associate hPlain hBlock
  have hKeys := map_fst_keyedLines hPlain hBlock
  refine ⟨map_path_scanPaths hPlain hBlock, map_entry_associate hKeys, ?_, ?_⟩
  · rw [Scan.filter_isKeyed_scanPaths, List.map_map, hTied]
    rfl
  · have hPlace : ∀ step ∈ Scan.keyedSteps lines, step.entry.place =
        (step.number, step.path.lastText, Text.trimmed step.raw, step.path) := by
      intro step hStep
      rw [Scan.keyedSteps, List.mem_filter] at hStep
      obtain ⟨key, hKey⟩ := Option.isSome_iff_exists.mp hStep.2
      have hLast := Scan.lastKey?_of_mem_steps hStep.1
      rw [hKey] at hLast
      rw [Path.lastText_of_lastKey? hLast, PathEntry.place, Step.entry, hKey]
      rfl
    rw [getD_treePaths?, Scan.filter_isKeyed_scanPaths, List.map_map, List.map_map]
    have hBoth := congrArg
      (List.map fun place : Nat × String × Path => (place.1, place.2.2.lastText, place.2)) hTied
    rw [List.map_map, List.map_map] at hBoth
    refine Eq.trans hBoth (List.map_congr_left fun step hStep => ?_)
    exact (hPlace step hStep).symm

/-- A tree in which the key `name` occurs in three places. -/
def service : Node :=
  .mapping
    [("name", .scalar "web"),
      ("ports", .sequence
        [.mapping [("name", .scalar "http"), ("port", .scalar "80")], .scalar "any", .null]),
      ("env", .mapping [("name", .scalar "prod")])]

/-- A layout of this tree with its dashes below the key they belong to. -/
def serviceLines : List String :=
  ["# service", "name: web", "ports:", "-  name: http", "   port: 80", "- any", "", "-", "env:",
    "     name: prod"]

theorem isPlain_service : service.IsPlain := by
  have hKeys : ∀ key ∈ ["name", "ports", "port", "env"], IsPlainKey key := by
    intro key hKey
    simp only [List.mem_cons, List.not_mem_nil, or_false] at hKey
    rcases hKey with rfl | rfl | rfl | rfl <;>
      exact ⟨by decide, by decide, by decide, by decide, by simp, by simp, by simp⟩
  have hScalars : ∀ text ∈ ["web", "http", "80", "any", "prod"], IsPlainScalar text := by
    intro text hText
    simp only [List.mem_cons, List.not_mem_nil, or_false] at hText
    rcases hText with rfl | rfl | rfl | rfl | rfl <;> exact ⟨by decide, by decide, by decide⟩
  simp [service, Node.IsPlain, Node.ArePlainMembers, Node.ArePlainItems, Node.IsPlainItem, hKeys,
    hScalars]

theorem isBlock_service : IsBlock service serviceLines := by
  have hBlanks : ∀ n, Layout.IsBlanks (List.replicate n ' ') := by
    intro n c hc
    rw [List.eq_of_mem_replicate hc]
    decide
  have hScalar : ∀ text : String, Layout.IsBehind (.scalar text) (' ' :: text.toList) :=
    fun text => ⟨[' '], [], hBlanks 1, hBlanks 0, by simp⟩
  have hAside : ∀ line : String, Line.isBlankOrComment line.toList = true →
      Layout.AreAsides [line] := by
    intro line hLine other hOther
    rw [List.mem_singleton.mp hOther]
    exact hLine
  have hNoAsides : Layout.AreAsides [] := fun line hLine => absurd hLine (by simp)
  have hEnv : Layout.AreMembers 5 [("name", .scalar "prod")] ["     name: prod"] := by
    rw [Layout.AreMembers]
    exact ⟨[], List.replicate 5 ' ', " prod".toList, [], [], hNoAsides, hBlanks 5, rfl,
      hScalar "prod", by rw [Layout.IsBelow], by rw [Layout.AreMembers]; exact hNoAsides,
      by decide⟩
  have hPort : Layout.AreMembers 3 [("port", .scalar "80")] ["   port: 80"] := by
    rw [Layout.AreMembers]
    exact ⟨[], List.replicate 3 ' ', " 80".toList, [], [], hNoAsides, hBlanks 3, rfl,
      hScalar "80", by rw [Layout.IsBelow], by rw [Layout.AreMembers]; exact hNoAsides,
      by decide⟩
  have hFirst : Layout.IsItem [] (.mapping [("name", .scalar "http"), ("port", .scalar "80")])
      ["-  name: http", "   port: 80"] := by
    rw [Layout.IsItem]
    exact ⟨List.replicate 2 ' ', " http".toList, [], ["   port: 80"], hBlanks 2, by decide,
      hScalar "http", by rw [Layout.IsBelow], hPort, by decide⟩
  have hLast : Layout.AreItems 0 [.null] ["", "-"] := by
    rw [Layout.AreItems]
    refine ⟨[""], [], ["-"], [], hAside "" (by decide), hBlanks 0, rfl, ?_,
      by rw [Layout.AreItems]; exact hNoAsides, by decide⟩
    rw [Layout.IsItem]
    exact ⟨[], hBlanks 0, by decide⟩
  have hRest : Layout.AreItems 0 [.scalar "any", .null] ["- any", "", "-"] := by
    rw [Layout.AreItems]
    refine ⟨[], [], ["- any"], ["", "-"], hNoAsides, hBlanks 0, rfl, ?_, hLast, by decide⟩
    rw [Layout.IsItem]
    exact ⟨[' '], [], hBlanks 1, by decide, hBlanks 0, by decide⟩
  have hPorts : Layout.AreItems 0
      [.mapping [("name", .scalar "http"), ("port", .scalar "80")], .scalar "any", .null]
      ["-  name: http", "   port: 80", "- any", "", "-"] := by
    rw [Layout.AreItems]
    exact ⟨[], [], ["-  name: http", "   port: 80"], _, hNoAsides, hBlanks 0, rfl, hFirst, hRest,
      rfl⟩
  refine ⟨0, ?_⟩
  rw [Layout.AreMembers]
  refine ⟨["# service"], [], " web".toList, [], serviceLines.drop 2, hAside "# service" (by decide),
    hBlanks 0, rfl, hScalar "web", by rw [Layout.IsBelow], ?_, by decide⟩
  rw [Layout.AreMembers]
  refine ⟨[], [], [], (serviceLines.drop 3).take 5, serviceLines.drop 8, hNoAsides, hBlanks 0, rfl,
    hBlanks 0, ?_, ?_, by decide⟩
  · rw [Layout.IsBelow]
    exact ⟨0, by decide, hPorts⟩
  · rw [Layout.AreMembers]
    refine ⟨[], [], [], ["     name: prod"], [], hNoAsides, hBlanks 0, rfl, hBlanks 0, ?_, ?_,
      by decide⟩
    · rw [Layout.IsBelow]
      exact ⟨5, by decide, hEnv⟩
    · rw [Layout.AreMembers]
      exact hNoAsides

theorem scan_agrees_with_tree_service :
    service.IsPlain ∧ IsBlock service serviceLines ∧
      (scanPaths serviceLines).map PathEntry.path =
        (service.outline.filter service.hasLine).map OutlineEntry.path ∧
      ((treePaths? service serviceLines).getD []).map PathEntry.place =
        ((scanPaths serviceLines).filter PathEntry.isKeyed).map PathEntry.place := by
  have hAgree := scan_agrees_with_tree isPlain_service isBlock_service
  exact ⟨isPlain_service, isBlock_service, hAgree.1, hAgree.2.2.2⟩

end YamlIndex
