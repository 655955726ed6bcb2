import YamlIndex.Proofs.Layout

/-!
# The scan of a block layout

While the lines of a subtree go by, the ancestors on which the subtree stands stay open below all
that the scan opens and closes.  Whatever is left on top of them is closed by the next line of the
enclosing node, whether that is a key or a dash.  `Covers` says this of a stretch of lines, together
with the paths of its steps and the paths whose counts it may change.

Counts need no reset on a block layout: keys of a mapping are distinct and positions go up, so no
path is met twice, and the counts below a node are zero when its first line is read (`Fresh`).

## Main results

* `map_path_steps`: the paths of the scan of a block layout are those of the nodes that have a line
  of their own, in document order.
-/

namespace YamlIndex

namespace Node

mutual

/-- The paths of the nodes below a node that have a line of their own in a block layout. -/
def linedBelow (path : Path) : Node → List Path
  | null => []
  | scalar _ => []
  | sequence items => linedItems path 1 items
  | mapping members => linedMembers path members

/-- The paths with a line of their own in the elements of a sequence.  An element that is a mapping
shares the line of its first key. -/
def linedItems (path : Path) (position : Nat) : List Node → List Path
  | [] => []
  | item :: rest =>
    (if item.isMapping then [] else [path.child (.index position)]) ++
      (linedBelow (path.child (.index position)) item ++ linedItems path (position + 1) rest)

/-- The paths with a line of their own in the members of a mapping. -/
def linedMembers (path : Path) : List (String × Node) → List Path
  | [] => []
  | (key, child) :: rest =>
    path.child (.key key) ::
      (linedBelow (path.child (.key key)) child ++ linedMembers path rest)

end

end Node

namespace Scan

/-! ## Ancestors that stay open -/

/-- Whether a key in the given column closes the ancestor. -/
def byKey (column : Nat) (a : Ancestor) : Bool :=
  column ≤ a.column

/-- Whether a marker in the given column closes the ancestor. -/
def byMarker (column : Nat) (a : Ancestor) : Bool :=
  column < a.column || column == a.column && a.segment.isIndex

/-- The chain consists of the given ancestors and of others further in that all close. -/
def Atop (closes : Ancestor → Bool) (base chain : List Ancestor) : Prop :=
  ∃ extra, chain = extra ++ base ∧ ∀ a ∈ extra, closes a = true

/-- The innermost one of the ancestors does not close. -/
def Stays (closes : Ancestor → Bool) (base : List Ancestor) : Prop :=
  ∀ a, base.head? = some a → closes a = false

theorem Atop.refl (closes : Ancestor → Bool) (base : List Ancestor) : Atop closes base base :=
  ⟨[], rfl, by simp⟩

theorem Atop.cons {closes : Ancestor → Bool} {base : List Ancestor} {a : Ancestor}
    (h : closes a = true) : Atop closes base (a :: base) :=
  ⟨[a], rfl, by simpa using h⟩

/-- What stands on an ancestor that closes stands on the ones below it. -/
theorem Atop.drop {closes closes' : Ancestor → Bool} {base chain : List Ancestor} {a : Ancestor}
    (h : Atop closes (a :: base) chain) (ha : closes' a = true)
    (hImp : ∀ b, closes b = true → closes' b = true) : Atop closes' base chain := by
  obtain ⟨extra, hChain, hExtra⟩ := h
  refine ⟨extra ++ [a], by simp [hChain], ?_⟩
  intro b hb
  rcases List.mem_append.mp hb with hIn | hIn
  · exact hImp b (hExtra b hIn)
  · rw [List.mem_singleton.mp hIn]
    exact ha

/-- Closing gives back the ancestors that stay. -/
theorem Atop.dropWhile_eq {closes : Ancestor → Bool} {base chain : List Ancestor}
    (h : Atop closes base chain) (hStays : Stays closes base) :
    chain.dropWhile closes = base := by
  obtain ⟨extra, rfl, hExtra⟩ := h
  rw [List.dropWhile_append_of_pos hExtra]
  cases base with
  | nil => rfl
  | cons a base =>
      have ha := hStays a rfl
      rw [List.dropWhile_cons_of_neg (by simp [ha])]

/-! ## Counts below a path -/

/-- Nothing has been counted at the path or below it. -/
def Fresh (tally : Tally) (path : Path) : Prop :=
  ∀ q, path <+: q → tally.count q = 0

theorem eq_of_prefix_child {path q : Path} {a b : Segment} (ha : path.child a <+: q)
    (hb : path.child b <+: q) : a = b := by
  have hEq := List.prefix_of_prefix_length_le ha hb (by simp [Path.child])
  have hChild : path.child a = path.child b := hEq.eq_of_length (by simp [Path.child])
  simpa [Path.child] using hChild

theorem not_child_prefix_self (path : Path) (a : Segment) : ¬ path.child a <+: path :=
  fun h => absurd h.length_le (by simp [Path.child])

theorem prefix_of_child {path q : Path} {a : Segment} (h : path.child a <+: q) : path <+: q :=
  (List.prefix_append path [a]).trans h

/-- What happens below one child leaves another one fresh. -/
theorem Fresh.of_unchanged {before after : Tally} {path : Path} {a b : Segment} (hab : a ≠ b)
    (h : Fresh before (path.child b))
    (hSame : ∀ q, path <+: q → q ≠ path → ¬ path.child a <+: q →
      after.count q = before.count q) : Fresh after (path.child b) := by
  intro q hq
  rw [hSame q (prefix_of_child hq), h q hq]
  · rintro rfl
    exact absurd hq.length_le (by simp [Path.child])
  · exact fun ha => hab (eq_of_prefix_child ha hq)

/-- Forgetting the items of a path keeps what is fresh. -/
theorem Fresh.of_reset {before after : Tally} {path other : Path} (h : Fresh before path)
    (hCount : ∀ q, after.count q = if q = other then 0 else before.count q) :
    Fresh after path := by
  intro q hq
  rw [hCount]
  split
  · rfl
  · exact h q hq

/-! ## Stretches of lines -/

/-- What a stretch of lines does to a scan: on the ancestors in `base` only such are left that
`closes` closes, the counts change at most where `touched` says, and the steps have the given
paths. -/
structure Covers (closes : Ancestor → Bool) (base : List Ancestor) (touched : Path → Prop)
    (paths : List Path) (before after : State) : Prop where
  atop : Atop closes base after.ancestors.chain
  tally : ∀ q, ¬ touched q → after.tally.count q = before.tally.count q
  steps : after.steps.map Step.path = paths.reverse ++ before.steps.map Step.path

theorem Covers.trans {closes closes' : Ancestor → Bool} {base base' : List Ancestor}
    {touched touched' all : Path → Prop} {paths paths' : List Path} {s t u : State}
    (h : Covers closes base touched paths s t) (h' : Covers closes' base' touched' paths' t u)
    (hAll : ∀ q, touched q → all q) (hAll' : ∀ q, touched' q → all q) :
    Covers closes' base' all (paths ++ paths') s u where
  atop := h'.atop
  tally q hq := by
    rw [h'.tally q fun ht => hq (hAll' q ht), h.tally q fun ht => hq (hAll q ht)]
  steps := by
    rw [h'.steps, h.steps, List.reverse_append, List.append_assoc]

theorem Covers.mono {closes closes' : Ancestor → Bool} {base base' : List Ancestor}
    {touched all : Path → Prop} {paths : List Path} {s t : State}
    (h : Covers closes base touched paths s t) (hAtop : Atop closes' base' t.ancestors.chain)
    (hAll : ∀ q, touched q → all q) : Covers closes' base' all paths s t where
  atop := hAtop
  tally q hq := h.tally q fun ht => hq (hAll q ht)
  steps := h.steps

/-- The lines below a key leave the keys beside it fresh. -/
theorem Covers.fresh_siblings {closes : Ancestor → Bool} {base : List Ancestor} {path : Path}
    {key : String} {paths : List Path} {s t : State} {names : List String}
    (h : Covers closes base (path.child (.key key) <+: ·) paths s t) (hKey : key ∉ names)
    (hFresh : ∀ name ∈ names, Fresh s.tally (path.child (.key name))) :
    ∀ name ∈ names, Fresh t.tally (path.child (.key name)) := by
  intro name hName
  have hNe : Segment.key key ≠ Segment.key name := by
    intro hEq
    rw [Segment.key.injEq] at hEq
    exact hKey (hEq ▸ hName)
  exact (hFresh name hName).of_unchanged hNe fun q _ _ hq => h.tally q hq

/-- The lines below a key and those of the keys beside it cover the nodes of both. -/
theorem Covers.siblings {base : List Ancestor} {column : Nat} {path : Path} {key : String}
    {below rest : List Path} {s t u : State} {names : List String}
    (hBelow : Covers (byKey column) base (path.child (.key key) <+: ·) below s t)
    (hKey : key ∉ names) (hFresh : ∀ name ∈ names, Fresh s.tally (path.child (.key name)))
    (hRest : Atop (byKey column) base t.ancestors.chain →
      (∀ name ∈ names, Fresh t.tally (path.child (.key name))) →
        Covers (byKey column) base (path <+: ·) rest t u) :
    Covers (byKey column) base (path <+: ·) (below ++ rest) s u := by
  have hBeside := hRest hBelow.atop (hBelow.fresh_siblings hKey hFresh)
  exact hBelow.trans hBeside (fun q hq => prefix_of_child hq) fun q hq => hq

/-- Lines that are empty or comments do nothing. -/
theorem foldl_read_asides {asides : List String} (h : Layout.AreAsides asides)
    {lines : List (String × Nat)} (hLines : lines.map Prod.fst = asides) (state : State) :
    lines.foldl State.read state = state := by
  induction lines generalizing asides with
  | nil => rfl
  | cons line lines ih =>
      have hLine : Line.classify line.1 = .blank :=
        Layout.classify_aside (h line.1 (by simp [← hLines]))
      have hRead : state.read line = state := by
        rw [State.read, hLine]
      rw [List.foldl_cons, hRead]
      exact ih (fun other hOther => h other (by simp [← hLines] at hOther ⊢; exact .inr hOther))
        rfl

/-! ## The lines of keys and of dashes -/

section Lines

variable {state : State} {base : List Ancestor} {column : Nat}

/-- A key opens itself on the ancestors that stay, and forgets the items of its path. -/
theorem read_key (hAtop : Atop (byKey column) base state.ancestors.chain)
    (hStays : Stays (byKey column) base) {line : String × Nat} {key : String}
    {value : Option String} (hLine : Line.classify line.1 = .mapping ⟨column, key, value⟩) :
    let path := (Ancestors.mk base).path.child (.key key)
    let after := state.read line
    after.ancestors.chain = ⟨.key key, column⟩ :: base ∧
      (∀ q, after.tally.count q = if q = path then 0 else state.tally.count q) ∧
      after.steps.map Step.path = path :: state.steps.map Step.path := by
  have hClose : state.ancestors.close column = ⟨base⟩ := by
    rw [Ancestors.close]
    exact congrArg Ancestors.mk (hAtop.dropWhile_eq hStays)
  dsimp only
  rw [State.read, hLine]
  dsimp only
  rw [State.readMapping, hClose]
  refine ⟨rfl, ?_, ?_⟩
  · intro q
    rw [Tally.count_reset, Ancestors.path_push]
  · rw [List.map_cons, Ancestors.path_push]

/-- A dash closes down to the ancestors that stay, and counts one more item for their path. -/
theorem readItem_spec (hAtop : Atop (byMarker column) base state.ancestors.chain)
    (hStays : Stays (byMarker column) base) (number : Nat) (raw : String) (item : ItemLine)
    (hIndent : item.indent = column) {position : Nat}
    (hPosition : state.tally.count (Ancestors.mk base).path + 1 = position) :
    let path := (Ancestors.mk base).path
    let after := state.readItem number raw item
    (∀ q, after.tally.count q = if q = path then position else state.tally.count q) ∧
      match item.key with
      | some key =>
        after.ancestors.chain =
            ⟨.key key, item.keyIndent⟩ :: ⟨.index position, column⟩ :: base ∧
          after.steps.map Step.path =
            (path.child (.index position)).child (.key key) :: state.steps.map Step.path
      | none =>
        after.ancestors.chain = base ∧
          after.steps.map Step.path =
            path.child (.index position) :: state.steps.map Step.path := by
  subst hIndent hPosition
  have hClose : state.ancestors.closeItem item.indent = ⟨base⟩ := by
    rw [Ancestors.closeItem]
    exact congrArg Ancestors.mk (hAtop.dropWhile_eq hStays)
  have hCount : ∀ q, (state.tally.bump (Ancestors.mk base).path).count q =
      if q = (Ancestors.mk base).path then state.tally.count (Ancestors.mk base).path + 1
      else state.tally.count q := by
    intro q
    rw [Tally.count_bump, Tally.count_reset]
    by_cases hq : q = (Ancestors.mk base).path
    · rw [if_pos hq, if_pos hq]
    · rw [if_neg hq, if_neg hq, if_neg hq]
  dsimp only
  rw [State.readItem, hClose]
  cases item.key with
  | none =>
      refine ⟨hCount, rfl, ?_⟩
      dsimp only
      rw [List.map_cons, hCount, if_pos rfl]
  | some key =>
      refine ⟨hCount, ?_, ?_⟩
      · show ⟨.key key, item.keyIndent⟩ ::
          ⟨.index ((state.tally.bump _).count _), item.indent⟩ :: base = _
        rw [hCount, if_pos rfl]
      · dsimp only
        rw [List.map_cons, Ancestors.path_push, Ancestors.path_push, hCount, if_pos rfl]

/-- A dash with a key behind it opens the position and the key. -/
theorem read_itemKey (hAtop : Atop (byMarker column) base state.ancestors.chain)
    (hStays : Stays (byMarker column) base) {line : String × Nat} {key : String}
    {keyColumn : Nat} {value : Option String}
    (hLine : Line.classify line.1 = .item ⟨column, some key, keyColumn, value⟩) {position : Nat}
    (hPosition : state.tally.count (Ancestors.mk base).path + 1 = position) :
    let path := (Ancestors.mk base).path
    let after := state.read line
    after.ancestors.chain = ⟨.key key, keyColumn⟩ :: ⟨.index position, column⟩ :: base ∧
      (∀ q, after.tally.count q = if q = path then position else state.tally.count q) ∧
      after.steps.map Step.path =
        (path.child (.index position)).child (.key key) :: state.steps.map Step.path := by
  obtain ⟨hCount, hChain, hSteps⟩ :=
    readItem_spec hAtop hStays line.2 line.1 ⟨column, some key, keyColumn, value⟩ rfl hPosition
  dsimp only
  rw [State.read, hLine]
  exact ⟨hChain, hCount, hSteps⟩

/-- Where nothing is counted at a position, nothing is counted at its keys once it is opened. -/
theorem fresh_read_itemKey (hAtop : Atop (byMarker column) base state.ancestors.chain)
    (hStays : Stays (byMarker column) base) {line : String × Nat} {key : String}
    {keyColumn : Nat} {value : Option String}
    (hLine : Line.classify line.1 = .item ⟨column, some key, keyColumn, value⟩) {position : Nat}
    (hPosition : state.tally.count (Ancestors.mk base).path + 1 = position)
    (hFresh : Fresh state.tally ((Ancestors.mk base).path.child (.index position)))
    (name : String) :
    Fresh (state.read line).tally
      (((Ancestors.mk base).path.child (.index position)).child (.key name)) := by
  obtain ⟨-, hCount, -⟩ := read_itemKey hAtop hStays hLine hPosition
  intro q hq
  have hUnder := prefix_of_child hq
  rw [hCount, if_neg]
  · exact hFresh q hUnder
  · rintro rfl
    exact not_child_prefix_self _ _ hUnder

/-- What lines cover within an element they cover in its sequence, together with the line of the
dash and the first key. -/
theorem covers_itemKey (hAtop : Atop (byMarker column) base state.ancestors.chain)
    (hStays : Stays (byMarker column) base) {line : String × Nat} {key : String}
    {keyColumn : Nat} {value : Option String}
    (hLine : Line.classify line.1 = .item ⟨column, some key, keyColumn, value⟩)
    (hColumn : column < keyColumn) {position : Nat}
    (hPosition : state.tally.count (Ancestors.mk base).path + 1 = position)
    {paths : List Path} {after : State} :
    let path := (Ancestors.mk base).path
    Covers (byKey keyColumn) (⟨.index position, column⟩ :: base)
        (path.child (.index position) <+: ·) paths (state.read line) after →
      Covers (byMarker column) base (fun q => q = path ∨ path.child (.index position) <+: q)
          ((path.child (.index position)).child (.key key) :: paths) state after ∧
        after.tally.count path = position := by
  intro path hInside
  obtain ⟨hChain, hCount, hSteps⟩ := read_itemKey hAtop hStays hLine hPosition
  have hOwn : Covers (byKey keyColumn) (⟨.index position, column⟩ :: base) (· = path)
      [(path.child (.index position)).child (.key key)] state (state.read line) := by
    refine ⟨?_, fun q hq => by rw [hCount, if_neg hq], hSteps⟩
    rw [hChain]
    exact Atop.cons (by simp [byKey])
  have hAll := hOwn.trans hInside
    (fun q hq => (.inl hq : q = path ∨ path.child (.index position) <+: q)) fun q hq => .inr hq
  have hDrop : Atop (byMarker column) base after.ancestors.chain := by
    refine hAll.atop.drop (by simp [byMarker, Segment.isIndex]) fun a ha => ?_
    simp only [byKey, byMarker, decide_eq_true_eq, Bool.or_eq_true] at ha ⊢
    exact .inl (by omega)
  refine ⟨hAll.mono hDrop fun q hq => hq, ?_⟩
  rw [hInside.tally path (not_child_prefix_self path _), hCount, if_pos rfl]

/-- An item line without a key covers its element. -/
theorem covers_itemAlone (hAtop : Atop (byMarker column) base state.ancestors.chain)
    (hStays : Stays (byMarker column) base) {line : String × Nat} {item : ItemLine}
    (hLine : Line.classify line.1 = .item item) (hIndent : item.indent = column)
    (hKey : item.key = none) {position : Nat}
    (hPosition : state.tally.count (Ancestors.mk base).path + 1 = position) :
    Covers (byMarker column) base (· = (Ancestors.mk base).path)
        [(Ancestors.mk base).path.child (.index position)] state (state.read line) ∧
      (state.read line).tally.count (Ancestors.mk base).path = position := by
  obtain ⟨hCount, hItem⟩ := readItem_spec hAtop hStays line.2 line.1 item hIndent hPosition
  rw [hKey] at hItem
  rw [State.read, hLine]
  refine ⟨⟨?_, fun q hq => ?_, hItem.2⟩, ?_⟩
  · rw [hItem.1]
    exact Atop.refl _ _
  · rw [hCount, if_neg hq]
  · rw [hCount, if_pos rfl]

end Lines

/-! ## Subtrees -/

mutual

/-- The lines below a key cover the nodes below it. -/
theorem covers_below (node : Node) {column : Nat} {own : List String}
    (hLayout : Layout.IsBelow column node own) (hPlain : node.IsPlain)
    {lines : List (String × Nat)} (hLines : lines.map Prod.fst = own) {state : State}
    {key : String} {base : List Ancestor}
    (hChain : state.ancestors.chain = ⟨.key key, column⟩ :: base)
    (hFresh : Fresh state.tally ((Ancestors.mk base).path.child (.key key))) :
    Covers (byKey column) base ((Ancestors.mk base).path.child (.key key) <+: ·)
      (node.linedBelow ((Ancestors.mk base).path.child (.key key))) state
      (lines.foldl State.read state) := by
  have hPath : (Ancestors.mk (⟨.key key, column⟩ :: base)).path =
      (Ancestors.mk base).path.child (.key key) :=
    Ancestors.path_push ⟨base⟩ (.key key) column
  have hNone : lines.map Prod.fst = [] → Covers (byKey column) base
      ((Ancestors.mk base).path.child (.key key) <+: ·) [] state
      (lines.foldl State.read state) := by
    intro hNil
    rw [List.map_eq_nil_iff.mp hNil]
    refine ⟨?_, fun _ _ => rfl, rfl⟩
    rw [List.foldl_nil, hChain]
    exact Atop.cons (by simp [byKey])
  cases node with
  | null =>
      rw [Layout.IsBelow] at hLayout
      exact hNone (hLines.trans hLayout)
  | scalar text =>
      rw [Layout.IsBelow] at hLayout
      exact hNone (hLines.trans hLayout)
  | sequence items =>
      rw [Layout.IsBelow] at hLayout
      rw [Node.IsPlain] at hPlain
      obtain ⟨dashes, hColumn, hItems⟩ := hLayout
      have hAtop : Atop (byMarker dashes) (⟨.key key, column⟩ :: base)
          state.ancestors.chain := by
        rw [hChain]
        exact Atop.refl _ _
      have hStays : Stays (byMarker dashes) (⟨.key key, column⟩ :: base) := by
        intro a ha
        cases ha
        simp only [byMarker, Segment.isIndex, Bool.and_false, Bool.or_false,
          decide_eq_false_iff_not]
        omega
      have hCovers := covers_items items 1 hItems hPlain.2 hLines hAtop hStays
        (by rw [hPath, hFresh _ (List.prefix_refl _)])
        (by
          intro n _ q hq
          rw [hPath] at hq
          exact hFresh q (prefix_of_child hq))
      rw [hPath] at hCovers
      refine hCovers.mono (hCovers.atop.drop (by simp [byKey]) ?_) fun _ hq => hq
      intro b hb
      simp only [byMarker, byKey, Bool.or_eq_true, Bool.and_eq_true, decide_eq_true_eq,
        beq_iff_eq] at hb ⊢
      omega
  | mapping members =>
      rw [Layout.IsBelow] at hLayout
      rw [Node.IsPlain] at hPlain
      obtain ⟨keys, hColumn, hMembers⟩ := hLayout
      have hAtop : Atop (byKey keys) (⟨.key key, column⟩ :: base) state.ancestors.chain := by
        rw [hChain]
        exact Atop.refl _ _
      have hStays : Stays (byKey keys) (⟨.key key, column⟩ :: base) := by
        intro a ha
        cases ha
        simpa [byKey] using hColumn
      have hCovers := covers_members members hMembers hPlain.2.2 hPlain.2.1 hLines hAtop hStays
        (by
          intro name _ q hq
          rw [hPath] at hq
          exact hFresh q (prefix_of_child hq))
      rw [hPath] at hCovers
      refine hCovers.mono (hCovers.atop.drop (by simp [byKey]) ?_) fun _ hq => hq
      intro b hb
      simp only [byKey, decide_eq_true_eq] at hb ⊢
      omega

/-- The lines of members of a mapping cover these and the nodes below them. -/
theorem covers_members (members : List (String × Node)) {column : Nat} {own : List String}
    (hLayout : Layout.AreMembers column members own) (hPlain : Node.ArePlainMembers members)
    (hNodup : (members.map Prod.fst).Nodup) {lines : List (String × Nat)}
    (hLines : lines.map Prod.fst = own) {state : State} {base : List Ancestor}
    (hAtop : Atop (byKey column) base state.ancestors.chain)
    (hStays : Stays (byKey column) base)
    (hFresh : ∀ key ∈ members.map Prod.fst,
      Fresh state.tally ((Ancestors.mk base).path.child (.key key))) :
    Covers (byKey column) base ((Ancestors.mk base).path <+: ·)
      (Node.linedMembers (Ancestors.mk base).path members) state
      (lines.foldl State.read state) := by
  cases members with
  | nil =>
      rw [Layout.AreMembers] at hLayout
      rw [foldl_read_asides hLayout hLines]
      exact ⟨hAtop, fun _ _ => rfl, rfl⟩
  | cons member rest =>
      obtain ⟨key, child⟩ := member
      rw [Layout.AreMembers] at hLayout
      obtain ⟨asides, lead, behind, below, more, hAsides, hLead, hColumn, -, hBelow, hMore, rfl⟩ :=
        hLayout
      rw [Node.ArePlainMembers] at hPlain
      obtain ⟨hKey, hChild, hRest⟩ := hPlain
      rw [List.map_cons, List.nodup_cons] at hNodup
      obtain ⟨before, after, rfl, hBefore, hAfter⟩ := List.map_eq_append_iff.mp hLines
      obtain ⟨line, after, rfl, hLine, hAfter⟩ := List.map_eq_cons_iff.mp hAfter
      obtain ⟨inner, outer, rfl, hInner, hOuter⟩ := List.map_eq_append_iff.mp hAfter
      have hClassify : Line.classify line.1 =
          .mapping ⟨column, key, Line.value? behind⟩ := by
        rw [hLine, Layout.classify_keyLine hLead hKey, hColumn]
      obtain ⟨hChain, hCount, hSteps⟩ := read_key hAtop hStays hClassify
      rw [List.foldl_append, foldl_read_asides hAsides hBefore, List.foldl_cons,
        List.foldl_append, Node.linedMembers]
      generalize state.read line = opened at hChain hCount hSteps ⊢
      have hOwn : Covers (byKey column) base (· = (Ancestors.mk base).path.child (.key key))
          [(Ancestors.mk base).path.child (.key key)] state opened := by
        refine ⟨?_, fun q hq => by rw [hCount, if_neg hq], hSteps⟩
        rw [hChain]
        exact Atop.cons (by simp [byKey])
      have hFreshOpened : ∀ name ∈ key :: rest.map Prod.fst,
          Fresh opened.tally ((Ancestors.mk base).path.child (.key name)) :=
        fun name hName => (hFresh name hName).of_reset hCount
      have hInside := (covers_below child hBelow hChild hInner hChain
        (hFreshOpened key (by simp))).siblings hNodup.1
          (fun name hName => hFreshOpened name (List.mem_cons_of_mem _ hName))
          fun hAtopRest hFreshRest =>
            covers_members rest hMore hRest hNodup.2 hOuter hAtopRest hStays hFreshRest
      refine hOwn.trans hInside ?_ fun q hq => hq
      rintro q rfl
      exact List.prefix_append _ _

/-- The lines of elements of a sequence cover these and the nodes below them. -/
theorem covers_items (items : List Node) (position : Nat) {column : Nat} {own : List String}
    (hLayout : Layout.AreItems column items own) (hPlain : Node.ArePlainItems items)
    {lines : List (String × Nat)} (hLines : lines.map Prod.fst = own) {state : State}
    {base : List Ancestor} (hAtop : Atop (byMarker column) base state.ancestors.chain)
    (hStays : Stays (byMarker column) base)
    (hPosition : state.tally.count (Ancestors.mk base).path + 1 = position)
    (hFresh : ∀ n ≥ position, Fresh state.tally ((Ancestors.mk base).path.child (.index n))) :
    Covers (byMarker column) base ((Ancestors.mk base).path <+: ·)
      (Node.linedItems (Ancestors.mk base).path position items) state
      (lines.foldl State.read state) := by
  cases items with
  | nil =>
      rw [Layout.AreItems] at hLayout
      rw [foldl_read_asides hLayout hLines]
      exact ⟨hAtop, fun _ _ => rfl, rfl⟩
  | cons item rest =>
      rw [Layout.AreItems] at hLayout
      obtain ⟨asides, lead, ownItem, more, hAsides, hLead, rfl, hItem, hMore, rfl⟩ := hLayout
      rw [Node.ArePlainItems] at hPlain
      obtain ⟨before, after, rfl, hBefore, hAfter⟩ := List.map_eq_append_iff.mp hLines
      obtain ⟨inner, outer, rfl, hInner, hOuter⟩ := List.map_eq_append_iff.mp hAfter
      obtain ⟨hCoversItem, hCount⟩ := covers_item item hLead hItem hPlain.1 hInner hAtop
        hStays hPosition (hFresh position (Nat.le_refl _))
      rw [List.foldl_append, foldl_read_asides hAsides hBefore, List.foldl_append,
        Node.linedItems, ← List.append_assoc]
      have hFreshRest : ∀ n ≥ position + 1, Fresh (inner.foldl State.read state).tally
          ((Ancestors.mk base).path.child (.index n)) := by
        intro n hn
        have hNe : Segment.index position ≠ Segment.index n := by
          intro hEq
          rw [Segment.index.injEq] at hEq
          omega
        refine Fresh.of_unchanged hNe (hFresh n (by omega)) ?_
        intro q _ hSelf hq
        exact hCoversItem.tally q (not_or.mpr ⟨hSelf, hq⟩)
      have hCoversRest := covers_items rest (position + 1) hMore hPlain.2 hOuter
        hCoversItem.atop hStays (congrArg (· + 1) hCount) hFreshRest
      refine hCoversItem.trans hCoversRest ?_ fun q hq => hq
      rintro q (rfl | hq)
      · exact List.prefix_refl _
      · exact prefix_of_child hq

/-- The lines of an element of a sequence cover it and the nodes below it, and count it. -/
theorem covers_item (item : Node) {lead : List Char} {own : List String}
    (hLead : Layout.IsBlanks lead) (hLayout : Layout.IsItem lead item own)
    (hPlain : item.IsPlainItem)
    {lines : List (String × Nat)} (hLines : lines.map Prod.fst = own) {state : State}
    {base : List Ancestor} (hAtop : Atop (byMarker lead.length) base state.ancestors.chain)
    (hStays : Stays (byMarker lead.length) base) {position : Nat}
    (hPosition : state.tally.count (Ancestors.mk base).path + 1 = position)
    (hFresh : Fresh state.tally ((Ancestors.mk base).path.child (.index position))) :
    let path := (Ancestors.mk base).path
    let after := lines.foldl State.read state
    Covers (byMarker lead.length) base
      (fun q => q = path ∨ path.child (.index position) <+: q)
      ((if item.isMapping then [] else [path.child (.index position)]) ++
        item.linedBelow (path.child (.index position))) state after ∧
      after.tally.count path = position := by
  intro path after
  cases item with
  | null =>
      rw [Layout.IsItem] at hLayout
      obtain ⟨tail, hTail, rfl⟩ := hLayout
      obtain ⟨line, rfl, hLine⟩ := List.map_eq_singleton_iff.mp hLines
      obtain ⟨element, hClassify, hIndent, hKey⟩ := Layout.classify_nullItem hLead hTail
      obtain ⟨hCovers, hCount⟩ := covers_itemAlone hAtop hStays (hLine.symm ▸ hClassify) hIndent
        hKey hPosition
      exact ⟨hCovers.mono hCovers.atop fun q hq => .inl hq, hCount⟩
  | scalar text =>
      rw [Layout.IsItem] at hLayout
      rw [Node.IsPlainItem] at hPlain
      obtain ⟨gap, tail, hGap, hNil, hTail, rfl⟩ := hLayout
      obtain ⟨line, rfl, hLine⟩ := List.map_eq_singleton_iff.mp hLines
      obtain ⟨element, hClassify, hIndent, hKey⟩ :=
        Layout.classify_scalarItem hLead hGap hNil hTail hPlain.2
      obtain ⟨hCovers, hCount⟩ := covers_itemAlone hAtop hStays (hLine.symm ▸ hClassify) hIndent
        hKey hPosition
      exact ⟨hCovers.mono hCovers.atop fun q hq => .inl hq, hCount⟩
  | sequence items =>
      rw [Layout.IsItem] at hLayout
      exact hLayout.elim
  | mapping members =>
      cases members with
      | nil =>
          rw [Layout.IsItem] at hLayout
          exact hLayout.elim
      | cons member rest =>
          obtain ⟨key, child⟩ := member
          rw [Layout.IsItem] at hLayout
          obtain ⟨gap, behind, below, more, hGap, hNil, -, hBelow, hMore, rfl⟩ := hLayout
          rw [Node.IsPlainItem, Node.ArePlainMembers] at hPlain
          obtain ⟨-, hNodup, hKey, hChild, hRest⟩ := hPlain
          rw [List.map_cons, List.nodup_cons] at hNodup
          obtain ⟨line, tail, rfl, hLine, hTail⟩ := List.map_eq_cons_iff.mp hLines
          obtain ⟨inner, outer, rfl, hInner, hOuter⟩ := List.map_eq_append_iff.mp hTail
          have hClassify : Line.classify line.1 = .item ⟨lead.length, some key,
              lead.length + 1 + gap.length, Line.value? behind⟩ := by
            rw [hLine, Layout.classify_itemKeyLine hLead hGap hNil hKey]
          obtain ⟨hChain, -, -⟩ := read_itemKey hAtop hStays hClassify hPosition
          have hFreshItem := fresh_read_itemKey hAtop hStays hClassify hPosition hFresh
          have hIndex : (Ancestors.mk (⟨.index position, lead.length⟩ :: base)).path =
              path.child (.index position) :=
            Ancestors.path_push ⟨base⟩ (.index position) lead.length
          have hAfter : after = outer.foldl State.read
              (inner.foldl State.read (state.read line)) := by
            show (line :: (inner ++ outer)).foldl State.read state = _
            rw [List.foldl_cons, List.foldl_append]
          have hStaysItem : Stays (byKey (lead.length + 1 + gap.length))
              (⟨.index position, lead.length⟩ :: base) := by
            intro a ha
            cases ha
            simp only [byKey, decide_eq_false_iff_not]
            omega
          have hInside := (covers_below child hBelow hChild hInner hChain
            (hIndex ▸ hFreshItem key)).siblings hNodup.1 (fun name _ => hIndex ▸ hFreshItem name)
              fun hAtopRest hFreshRest =>
                covers_members rest hMore hRest hNodup.2 hOuter hAtopRest hStaysItem hFreshRest
          rw [hIndex] at hInside
          rw [hAfter]
          exact covers_itemKey hAtop hStays hClassify (by omega) hPosition hInside

end

/-- The scan of a block layout goes through the nodes that have a line of their own, in document
order. -/
theorem map_path_steps {root : Node} {lines : List String} (hPlain : root.IsPlain)
    (hBlock : IsBlock root lines) : (steps lines).map Step.path = root.linedBelow [] := by
  have hLines : (lines.zipIdx 1).map Prod.fst = lines := List.zipIdx_map_fst 1 lines
  have hSteps : ∀ {closes : Ancestor → Bool} {touched : Path → Prop},
      Covers closes [] touched (root.linedBelow []) {} (run lines) →
      (steps lines).map Step.path = root.linedBelow [] := by
    intro closes touched hCovers
    rw [steps, List.map_reverse, hCovers.steps, List.map_nil, List.append_nil,
      List.reverse_reverse]
  cases root with
  | null =>
      have hRun : run lines = {} := foldl_read_asides hBlock hLines {}
      rw [steps, hRun]
      rfl
  | scalar text => exact hBlock.elim
  | sequence items =>
      obtain ⟨column, hItems⟩ := hBlock
      rw [Node.IsPlain] at hPlain
      exact hSteps (covers_items items 1 hItems hPlain.2 hLines (Atop.refl (byMarker column) [])
        (fun a ha => absurd ha (by simp)) rfl fun _ _ _ _ => rfl)
  | mapping members =>
      obtain ⟨column, hMembers⟩ := hBlock
      rw [Node.IsPlain] at hPlain
      exact hSteps (covers_members members hMembers hPlain.2.2 hPlain.2.1 hLines
        (Atop.refl (byKey column) []) (fun a ha => absurd ha (by simp)) fun _ _ _ _ => rfl)

end Scan

end YamlIndex
