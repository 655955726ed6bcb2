import YamlIndex.Proofs.Nesting
import YamlIndex.Proofs.Survivors
import Mathlib.Data.List.FinRange
import Mathlib.Data.List.Range

/-!
# Paths without a stack

What path a line has can be said without a scan that pushes and pops.  Each line opens ancestors:
a mapping line its key, an item line its position and its inline key.  An ancestor survives a later
line unless that line closes it, and what it closes depends on the two of them alone.  The *context*
of a line is made of all ancestors opened above it that have survived every line since, up to and
including the line itself; its path is the context followed by what the line adds.

The position of an item line is one more than the number of earlier item lines in the same context,
counted from the last mapping line whose own path is that context.

The definitions go by well-founded recursion on the place of the line, since the context of a line
holds positions, and these are counted over the contexts of the lines above.

## Main results

* `scanPaths_eq_entries`: the scan gives one entry for each structural line, in line order, with the
  path that is defined here.
-/

namespace YamlIndex

/-! ## What one line does -/

/-- Whether an ancestor stays open when a line goes by: a mapping line leaves what stands further
left, an item line also a key in its own column. -/
def Ancestor.survives (ancestor : Ancestor) : Line → Bool
  | .blank => true
  | .unparsed => true
  | .mapping line => ancestor.column < line.indent
  | .item line =>
    ancestor.column < line.indent ||
      ancestor.column == line.indent && !ancestor.segment.isIndex

namespace Line

/-- Whether the line is a mapping line. -/
def isMapping : Line → Bool
  | mapping _ => true
  | _ => false

/-- Whether the line is an item line. -/
def isItem : Line → Bool
  | item _ => true
  | _ => false

/-- The ancestors that a line opens, outermost first; an item line has the given position. -/
def opens (position : Nat) : Line → List Ancestor
  | blank => []
  | unparsed => []
  | mapping line => [⟨.key line.key, line.indent⟩]
  | item line =>
    match line.key with
    | some key => [⟨.index position, line.indent⟩, ⟨.key key, line.keyIndent⟩]
    | none => []

/-- The segments that a line adds to the path of its context. -/
def adds (position : Nat) : Line → Path
  | blank => []
  | unparsed => []
  | mapping line => [.key line.key]
  | item line =>
    match line.key with
    | some key => [.index position, .key key]
    | none => [.index position]

end Line

/-! ## Contexts and positions -/

namespace Document

/-- The line at a place, counted from zero. -/
def lineAt (doc : List Line) (i : Nat) : Line :=
  doc.getD i .blank

/-- The path that a chain of ancestors spells, outermost first. -/
def spelled (chain : List Ancestor) : Path :=
  chain.map Ancestor.segment

mutual

/-- The ancestors of a line, outermost first: all that the lines above it open and that survive
every line from there to the line itself. -/
def context (doc : List Line) (i : Nat) : List Ancestor :=
  (List.finRange i).flatMap fun (j : Fin i) =>
    (opened doc j).filter fun a => ∀ k ≤ i, j < k → a.survives (lineAt doc k) = true
termination_by (i, 0)

/-- The position of an item line: one more than the number of item lines above it in the same
context such that no mapping line in between leads to this context itself. -/
def position (doc : List Line) (i : Nat) : Nat :=
  1 + (List.finRange i).countP fun (j : Fin i) =>
    (lineAt doc j).isItem ∧ spelled (context doc j) = spelled (context doc i) ∧
      ∀ k : Fin i, j < k → (lineAt doc k).isMapping → path doc k ≠ spelled (context doc i)
termination_by (i, 1)

/-- The ancestors that a line opens. -/
def opened (doc : List Line) (i : Nat) : List Ancestor :=
  (lineAt doc i).opens (position doc i)
termination_by (i, 2)

/-- The path of a line. -/
def path (doc : List Line) (i : Nat) : Path :=
  spelled (context doc i) ++ (lineAt doc i).adds (position doc i)
termination_by (i, 2)

end

/-- The index entry for the line at a place. -/
def entryAt (lines : List String) (i : Nat) : PathEntry :=
  let doc := lines.map Line.classify
  let line := lineAt doc i
  { line := i + 1
    key := line.key?.getD ("[" ++ Text.decimal (position doc i) ++ "]")
    text := Text.trimmed (lines.getD i "")
    path := path doc i
    isItem := line.isItem
    position := if line.isItem then some (position doc i) else none }

/-! ## One more line -/

/-- The ancestors that the lines above a place leave open, outermost first. -/
def stillOpen (doc : List Line) (i : Nat) : List Ancestor :=
  (List.range i).flatMap fun j =>
    (opened doc j).filter fun a => ∀ k < i, j < k → a.survives (lineAt doc k) = true

/-- Whether the line at `j` is an item line in the context that spells a path, and no mapping line
between `j` and `i` leads to this path. -/
def countsAt (doc : List Line) (i : Nat) (p : Path) (j : Nat) : Bool :=
  (lineAt doc j).isItem ∧ spelled (context doc j) = p ∧
    ∀ k < i, j < k → (lineAt doc k).isMapping → path doc k ≠ p

/-- How many item lines above a place stand in the context that spells a path, counted from the last
mapping line that leads to this path. -/
def itemsSince (doc : List Line) (i : Nat) (p : Path) : Nat :=
  (List.range i).countP (countsAt doc i p)

theorem flatMap_finRange {α : Type} (n : Nat) (f : Nat → List α) :
    ((List.finRange n).flatMap fun (j : Fin n) => f j) = (List.range n).flatMap f := by
  rw [← List.map_coe_finRange_eq_range, List.flatMap_map]

theorem context_eq_kept (doc : List Line) (i : Nat) :
    context doc i = kept (opened doc) (fun a k => a.survives (lineAt doc k)) i := by
  rw [context, kept_eq_flatMap, flatMap_finRange i fun j => (opened doc j).filter fun a =>
    ∀ k ≤ i, j < k → a.survives (lineAt doc k) = true]

/-- A line keeps of what the lines above it leave open the part that survives it. -/
theorem context_eq_filter (doc : List Line) (i : Nat) :
    context doc i = (stillOpen doc i).filter fun a => a.survives (lineAt doc i) :=
  context_eq_kept doc i

/-- Behind a line its context is open, and what it opens itself. -/
theorem stillOpen_succ (doc : List Line) (i : Nat) :
    stillOpen doc (i + 1) = context doc i ++ opened doc i := by
  rw [context_eq_kept]
  exact survivors_succ (opened doc) (fun a k => a.survives (lineAt doc k)) i

theorem position_eq (doc : List Line) (i : Nat) :
    position doc i = 1 + itemsSince doc i (spelled (context doc i)) := by
  rw [position, itemsSince, ← List.map_coe_finRange_eq_range, List.countP_map]
  congr 1
  refine List.countP_congr ?_
  intro j _
  simp only [Function.comp_apply, countsAt, decide_eq_true_eq]
  refine and_congr_right fun _ => and_congr_right fun _ => ?_
  constructor
  · intro h k hk hjk hMapping
    exact h ⟨k, hk⟩ hjk hMapping
  · intro h k hjk hMapping
    exact h k k.isLt hjk hMapping

/-- A line above still counts one line later unless the line between is a mapping line that leads to
the path. -/
theorem countsAt_succ (doc : List Line) {i j : Nat} (hj : j < i) (p : Path) :
    countsAt doc (i + 1) p j = true ↔
      countsAt doc i p j = true ∧ ¬ ((lineAt doc i).isMapping = true ∧ path doc i = p) := by
  simp only [countsAt, decide_eq_true_eq, and_assoc]
  refine and_congr_right fun _ => and_congr_right fun _ => ?_
  constructor
  · intro h
    exact ⟨fun k hk => h k (by omega), fun hi => h i (by omega) hj hi.1 hi.2⟩
  · rintro ⟨h, hi⟩ k hk hjk hMapping hPath
    rcases Nat.lt_or_eq_of_le (Nat.lt_succ_iff.mp hk) with hlt | rfl
    · exact h k hlt hjk hMapping hPath
    · exact hi ⟨hMapping, hPath⟩

theorem countsAt_self (doc : List Line) (i : Nat) (p : Path) :
    countsAt doc (i + 1) p i = true ↔
      (lineAt doc i).isItem = true ∧ spelled (context doc i) = p := by
  simp only [countsAt, decide_eq_true_eq]
  constructor
  · exact fun h => ⟨h.1, h.2.1⟩
  · exact fun h => ⟨h.1, h.2, fun k hk hik => by omega⟩

/-- A mapping line that leads to the path forgets its items, an item line in its context is one
more. -/
theorem itemsSince_succ (doc : List Line) (i : Nat) (p : Path) :
    itemsSince doc (i + 1) p =
      if (lineAt doc i).isMapping = true ∧ path doc i = p then 0
      else itemsSince doc i p +
        if (lineAt doc i).isItem = true ∧ spelled (context doc i) = p then 1 else 0 := by
  rw [itemsSince, List.range_succ, List.countP_append, List.countP_singleton]
  simp only [countsAt_self]
  by_cases hReset : (lineAt doc i).isMapping = true ∧ path doc i = p
  · have hNone : ∀ j ∈ List.range i, ¬ countsAt doc (i + 1) p j = true := by
      intro j hj hCounts
      exact ((countsAt_succ doc (List.mem_range.mp hj) p).mp hCounts).2 hReset
    have hItem : (lineAt doc i).isItem = false := by
      cases hLine : lineAt doc i <;> simp_all [Line.isMapping, Line.isItem]
    rw [if_pos hReset, List.countP_eq_zero.mpr hNone]
    simp [hItem]
  · have hSame : ∀ j ∈ List.range i,
        (countsAt doc (i + 1) p j = true ↔ countsAt doc i p j = true) := by
      intro j hj
      rw [countsAt_succ doc (List.mem_range.mp hj)]
      exact and_iff_left hReset
    rw [if_neg hReset, List.countP_congr hSame, itemsSince]

/-! ## The scan, line by line -/

/-- The step of the scan for the line at a place. -/
def stepAt (lines : List String) (i : Nat) : Step :=
  let doc := lines.map Line.classify
  let line := lineAt doc i
  { number := i + 1
    raw := lines.getD i ""
    key := line.key?
    position := if line.isItem then some (position doc i) else none
    path := path doc i }

theorem entry_stepAt {lines : List String} {i : Nat}
    (h : (lineAt (lines.map Line.classify) i).isStructural = true) :
    (stepAt lines i).entry = entryAt lines i := by
  unfold stepAt entryAt Step.entry
  dsimp only
  cases hLine : lineAt (lines.map Line.classify) i with
  | blank => simp [hLine, Line.isStructural] at h
  | unparsed => simp [hLine, Line.isStructural] at h
  | mapping line => simp [Line.isItem, Line.key?]
  | item line => simp [Line.isItem]

/-- The places of the structural lines above a place. -/
def structuralBefore (doc : List Line) (i : Nat) : List Nat :=
  (List.range i).filter fun j => (lineAt doc j).isStructural

theorem structuralBefore_succ (doc : List Line) (i : Nat) :
    structuralBefore doc (i + 1) =
      structuralBefore doc i ++ if (lineAt doc i).isStructural then [i] else [] := by
  rw [structuralBefore, List.range_succ, List.filter_append, List.filter_singleton,
    cond_eq_ite, structuralBefore]

theorem lineAt_map_classify {lines : List String} {i : Nat} {raw : String}
    (h : lines[i]? = some raw) :
    lineAt (lines.map Line.classify) i = Line.classify raw := by
  rw [lineAt, List.getD_eq_getElem?_getD, List.getElem?_map, h]
  rfl

/-- The state of a scan above the line at a place, as the definitions of this module have it. -/
structure Describes (lines : List String) (i : Nat) (state : Scan.State) : Prop where
  nested : state.ancestors.Nested
  ancestors : state.ancestors.outermostFirst = stillOpen (lines.map Line.classify) i
  count : ∀ p, state.tally.count p = itemsSince (lines.map Line.classify) i p
  steps : state.steps.reverse =
    (structuralBefore (lines.map Line.classify) i).map (stepAt lines)

namespace Describes

variable {lines : List String} {i : Nat} {state : Scan.State} {raw : String}

theorem start : Describes lines 0 {} where
  nested := Ancestors.nested_empty
  ancestors := rfl
  count _ := rfl
  steps := rfl

/-- A line without structure changes nothing. -/
theorem pass (h : Describes lines i state)
    (hLine : (lineAt (lines.map Line.classify) i).isStructural = false) :
    Describes lines (i + 1) state where
  nested := h.nested
  ancestors := by
    rw [stillOpen_succ, context_eq_filter, opened, h.ancestors]
    cases hKind : lineAt (lines.map Line.classify) i <;>
      simp_all [Ancestor.survives, Line.opens, Line.isStructural]
  count p := by
    rw [itemsSince_succ, h.count]
    cases hKind : lineAt (lines.map Line.classify) i <;>
      simp_all [Line.isMapping, Line.isItem, Line.isStructural]
  steps := by
    rw [structuralBefore_succ, hLine, h.steps]
    simp

/-- The step of a structural line is added behind those of the lines above it. -/
theorem steps_cons (h : Describes lines i state)
    (hLine : (lineAt (lines.map Line.classify) i).isStructural = true) {step : Step}
    (hStep : step = stepAt lines i) :
    (step :: state.steps).reverse =
      (structuralBefore (lines.map Line.classify) (i + 1)).map (stepAt lines) := by
  rw [List.reverse_cons, h.steps, structuralBefore_succ, if_pos hLine, List.map_append, hStep]
  rfl

theorem readMapping (h : Describes lines i state) (hRaw : lines[i]? = some raw)
    {line : MappingLine} (hLine : lineAt (lines.map Line.classify) i = .mapping line) :
    Describes lines (i + 1) (state.readMapping (i + 1) raw line) := by
  have hContext : (state.ancestors.close line.indent).outermostFirst =
      context (lines.map Line.classify) i := by
    rw [Ancestors.outermostFirst_close h.nested, h.ancestors, context_eq_filter, hLine]
    rfl
  have hPath : ((state.ancestors.close line.indent).push (.key line.key) line.indent).path =
      path (lines.map Line.classify) i := by
    rw [Ancestors.path, Ancestors.outermostFirst_push, hContext, path, hLine, spelled,
      List.map_append]
    rfl
  constructor
  · exact Scan.State.nested_readMapping h.nested _ _ _
  · show ((state.ancestors.close line.indent).push (.key line.key) line.indent).outermostFirst = _
    rw [Ancestors.outermostFirst_push, hContext, stillOpen_succ, opened, hLine]
    rfl
  · intro p
    show (state.tally.reset _).count p = _
    rw [Tally.count_reset, hPath, itemsSince_succ, hLine, h.count]
    by_cases hp : p = path (lines.map Line.classify) i
    · simp [hp, Line.isMapping]
    · simp [hp, Ne.symm hp, Line.isMapping, Line.isItem]
  · refine h.steps_cons (by rw [hLine]; rfl) ?_
    simp [stepAt, hLine, hRaw, hPath, Line.isItem, Line.key?]

/-- The count after a marker is the position of the item. -/
theorem count_bump_parents (h : Describes lines i state) {parents : Ancestors}
    (hContext : parents.outermostFirst = context (lines.map Line.classify) i) :
    (state.tally.bump parents.path).count parents.path =
      position (lines.map Line.classify) i := by
  rw [Tally.count_bump, if_pos rfl, h.count, Ancestors.path, hContext, position_eq, Nat.add_comm]
  rfl

theorem count_readItem (h : Describes lines i state) {line : ItemLine}
    (hLine : lineAt (lines.map Line.classify) i = .item line) {parents : Ancestors}
    (hContext : parents.outermostFirst = context (lines.map Line.classify) i) (p : Path) :
    (state.tally.bump parents.path).count p = itemsSince (lines.map Line.classify) (i + 1) p := by
  have hSpelled : parents.path = spelled (context (lines.map Line.classify) i) := by
    rw [Ancestors.path, hContext]
    rfl
  rw [Tally.count_bump, Tally.count_reset, itemsSince_succ, hLine, ← hSpelled, h.count, h.count]
  by_cases hp : p = parents.path
  · subst hp
    simp [Line.isMapping, Line.isItem]
  · simp [hp, Ne.symm hp, Line.isMapping]

theorem readItem (h : Describes lines i state) (hRaw : lines[i]? = some raw)
    {line : ItemLine} (hLine : lineAt (lines.map Line.classify) i = .item line)
    (hKey : line.indent < line.keyIndent) :
    Describes lines (i + 1) (state.readItem (i + 1) raw line) := by
  have hContext : (state.ancestors.closeItem line.indent).outermostFirst =
      context (lines.map Line.classify) i := by
    rw [Ancestors.outermostFirst_closeItem h.nested, h.ancestors, context_eq_filter, hLine]
    rfl
  have hPosition := h.count_bump_parents hContext
  have hSpelled : (state.ancestors.closeItem line.indent).path =
      spelled (context (lines.map Line.classify) i) := by
    rw [Ancestors.path, hContext]
    rfl
  have hNested := Scan.State.nested_readItem h.nested (i + 1) raw hKey
  unfold Scan.State.readItem at hNested ⊢
  dsimp only at hNested ⊢
  rw [hPosition] at hNested ⊢
  cases hLineKey : line.key with
  | none =>
      rw [hLineKey] at hNested
      constructor
      · exact hNested
      · show (state.ancestors.closeItem line.indent).outermostFirst = _
        rw [hContext, stillOpen_succ, opened, hLine]
        simp [Line.opens, hLineKey]
      · exact h.count_readItem hLine hContext
      · refine h.steps_cons (by rw [hLine]; rfl) ?_
        simp [stepAt, hLine, hRaw, hSpelled, Line.isItem, Line.key?, hLineKey, path, Line.adds,
          Path.child]
  | some key =>
      rw [hLineKey] at hNested
      constructor
      · exact hNested
      · show (((state.ancestors.closeItem line.indent).push _ _).push _ _).outermostFirst = _
        rw [Ancestors.outermostFirst_push, Ancestors.outermostFirst_push, hContext,
          stillOpen_succ, opened, hLine]
        simp [Line.opens, hLineKey]
      · exact h.count_readItem hLine hContext
      · refine h.steps_cons (by rw [hLine]; rfl) ?_
        simp [stepAt, hLine, hRaw, hSpelled, Line.isItem, Line.key?, hLineKey, path, Line.adds,
          Path.child]

/-- Reading one more line keeps the description. -/
theorem read (h : Describes lines i state) (hRaw : lines[i]? = some raw) :
    Describes lines (i + 1) (state.read (raw, i + 1)) := by
  have hLine := lineAt_map_classify hRaw
  unfold Scan.State.read
  dsimp only
  split
  · rename_i hKind
    exact h.pass (by rw [hLine, hKind]; rfl)
  · rename_i hKind
    exact h.pass (by rw [hLine, hKind]; rfl)
  · rename_i line hKind
    exact h.readMapping hRaw (hLine.trans hKind)
  · rename_i line hKind
    exact h.readItem hRaw (hLine.trans hKind) (Line.indent_lt_keyIndent hKind)

end Describes

/-- What holds at the start of a pass over numbered lines, and of each line when it holds above it,
holds after any number of lines. -/
theorem foldl_take_induction {State : Type} {read : State → String × Nat → State} {start : State}
    {P : Nat → State → Prop} (lines : List String) (hStart : P 0 start)
    (hRead : ∀ i raw state, lines[i]? = some raw → P i state → P (i + 1) (read state (raw, i + 1)))
    (i : Nat) (hi : i ≤ lines.length) : P i (((lines.zipIdx 1).take i).foldl read start) := by
  induction i with
  | zero => exact hStart
  | succ i ih =>
      have hLast : (lines.zipIdx 1)[i]? = some (lines[i], i + 1) := by
        rw [List.getElem?_zipIdx, List.getElem?_eq_getElem (by omega), Option.map_some,
          Nat.add_comm 1 i]
      rw [List.take_add_one, List.foldl_append, hLast]
      exact hRead i lines[i] _ (List.getElem?_eq_getElem (by omega)) (ih (by omega))

theorem foldl_induction {State : Type} {read : State → String × Nat → State} {start : State}
    {P : Nat → State → Prop} (lines : List String) (hStart : P 0 start)
    (hRead : ∀ i raw state, lines[i]? = some raw → P i state →
      P (i + 1) (read state (raw, i + 1))) :
    P lines.length ((lines.zipIdx 1).foldl read start) := by
  have h := foldl_take_induction lines hStart hRead lines.length (Nat.le_refl _)
  rwa [List.take_of_length_le (by simp)] at h

/-- What holds of a scan after any number of lines. -/
theorem describes_take (lines : List String) (i : Nat) (hi : i ≤ lines.length) :
    Describes lines i (((lines.zipIdx 1).take i).foldl Scan.State.read {}) :=
  foldl_take_induction lines Describes.start (fun _ _ _ hRaw h => h.read hRaw) i hi

theorem describes_run (lines : List String) :
    Describes lines lines.length (Scan.run lines) :=
  foldl_induction lines Describes.start fun _ _ _ hRaw h => h.read hRaw

end Document

/-- The scan finds the structural lines, in order, each under the path that its context and its
position give it. -/
theorem scanPaths_eq_entries (lines : List String) :
    scanPaths lines =
      ((List.range lines.length).filter fun i =>
        (Document.lineAt (lines.map Line.classify) i).isStructural).map
          (Document.entryAt lines) := by
  rw [scanPaths, Scan.steps, (Document.describes_run lines).steps, List.map_map]
  refine List.map_congr_left ?_
  intro i hi
  exact Document.entry_stepAt (List.mem_filter.mp hi).2

end YamlIndex
