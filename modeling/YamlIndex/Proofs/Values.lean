import YamlIndex.Proofs.Context

/-!
# Values without a stack

Which values a document has can be said without a scan that pushes and pops.  Only mapping lines
take part.  A key without a value on its line groups what stands below it, until a mapping line
comes that is not further right; a key with a value is a leaf, and its path is made of the keys of
all groups that it stands in and its own.  Of the leaves with one path the first one counts.

## Main results

* `eraseDupsBy_filterMap_range`: keeping the first element of each key is keeping those that no
  earlier one shares the key with.
* `scanValues_eq_leaves`: the scan gives the leaves that no earlier leaf shares the path with, in
  line order.
-/

namespace YamlIndex

/-! ## The first element of each key -/

section FirstOfEach

variable {α κ : Type} [DecidableEq κ] {key : α → κ}

/-- Whether two elements have the same key. -/
def sameKey (key : α → κ) (a b : α) : Bool :=
  key b = key a

/-- One more element is kept unless one that was kept is like it. -/
theorem eraseDupsBy_concat (r : α → α → Bool) (xs : List α) (x : α) :
    (xs ++ [x]).eraseDupsBy r =
      xs.eraseDupsBy r ++ if (xs.eraseDupsBy r).any (r x) then [] else [x] := by
  have hLoop : ∀ seen : List α, List.eraseDupsBy.loop r (xs ++ [x]) seen =
      List.eraseDupsBy.loop r xs seen ++
        if (List.eraseDupsBy.loop r xs seen).any (r x) then [] else [x] := by
    induction xs with
    | nil =>
        intro seen
        simp only [List.nil_append, List.eraseDupsBy.loop, List.any_reverse]
        cases seen.any (r x) <;> simp
    | cons y xs ih =>
        intro seen
        rw [List.cons_append, List.eraseDupsBy.loop, List.eraseDupsBy.loop]
        cases seen.any (r y) with
        | true => exact ih seen
        | false => exact ih (y :: seen)
  exact hLoop []

/-- A key that occurs at all occurs among the first elements of each key. -/
theorem any_eraseDupsBy (xs : List α) (x : α) :
    (xs.eraseDupsBy (sameKey key)).any (sameKey key x) = xs.any (sameKey key x) := by
  induction xs using List.reverseRecOn with
  | nil => rfl
  | append_singleton xs y ih =>
      rw [eraseDupsBy_concat, List.any_append, List.any_append, ih]
      split
      · rename_i hSeen
        by_cases hKey : key y = key x
        · -- An earlier element with the key of `y` is one with the key of `x`.
          rw [List.any_eq_true] at hSeen
          obtain ⟨first, hFirst, hSame⟩ := hSeen
          have hAny : xs.any (sameKey key x) = true := by
            rw [← ih, List.any_eq_true]
            refine ⟨first, hFirst, ?_⟩
            simp only [sameKey, decide_eq_true_eq] at hSame ⊢
            exact hSame.trans hKey
          rw [hAny, Bool.true_or, Bool.true_or]
        · simp [sameKey, hKey]
      · rfl

/-- Keeping the first element of each key is keeping those that no earlier one shares the key
with. -/
theorem eraseDupsBy_filterMap_range (f : Nat → Option α) (n : Nat) :
    ((List.range n).filterMap f).eraseDupsBy (sameKey key) = (List.range n).filterMap fun i =>
      (f i).filter fun a => ∀ j < i, ∀ b ∈ f j, key b ≠ key a := by
  induction n with
  | zero => rfl
  | succ n ih =>
      rw [List.range_succ, List.filterMap_append, List.filterMap_append, ← ih]
      cases hLast : f n with
      | none => simp [hLast]
      | some a =>
          have hOne : [n].filterMap f = [a] := by simp [hLast]
          rw [hOne, eraseDupsBy_concat, any_eraseDupsBy]
          congr 1
          rw [List.filterMap_cons, hLast, Option.filter_some, List.filterMap_nil]
          by_cases hNew : ∀ j < n, ∀ b ∈ f j, key b ≠ key a
          · have hNone : ((List.range n).filterMap f).any (sameKey key a) = false := by
              rw [List.any_eq_false]
              intro b hb
              obtain ⟨j, hj, hValue⟩ := List.mem_filterMap.mp hb
              simpa [sameKey] using hNew j (List.mem_range.mp hj) b hValue
            rw [hNone, decide_eq_true hNew]
            rfl
          · have hSome : ((List.range n).filterMap f).any (sameKey key a) = true := by
              rw [List.any_eq_true]
              by_contra hNone
              refine hNew fun j hj b hb hSame => hNone ⟨b, ?_, decide_eq_true hSame⟩
              exact List.mem_filterMap.mpr ⟨j, List.mem_range.mpr hj, hb⟩
            rw [hSome, decide_eq_false hNew]
            rfl

end FirstOfEach

/-! ## What a line does -/

namespace Scan.ValueState

variable {state : ValueState} {raw : String} {line : MappingLine} {number : Nat} {value : String}

theorem read_of_not_mapping (h : (Line.classify raw).isMapping = false) :
    state.read (raw, number) = state := by
  rw [read]
  cases hKind : Line.classify raw <;> simp_all [Line.isMapping]

theorem read_of_group (hKind : Line.classify raw = .mapping line) (hValue : line.value = none) :
    state.read (raw, number) =
      { state with
        ancestors := (state.ancestors.close line.indent).push (.key line.key) line.indent } := by
  rw [read, hKind]
  dsimp only
  rw [hValue]

theorem ancestors_read_of_leaf (hKind : Line.classify raw = .mapping line)
    (hValue : line.value = some value) :
    (state.read (raw, number)).ancestors = state.ancestors.close line.indent := by
  rw [read, hKind]
  dsimp only
  rw [hValue]

/-- When what was found are the first of some leaves, it goes on to be, with the leaf on the line
behind them. -/
theorem found_read_of_leaf (hKind : Line.classify raw = .mapping line)
    (hValue : line.value = some value) {leaves : List ValueEntry}
    (hFound : state.found.reverse = leaves.eraseDupsBy (sameKey ValueEntry.path))
    {leaf : ValueEntry} (hLeaf : leaf =
      { line := number, key := line.key
        path := ((state.ancestors.close line.indent).push (.key line.key) line.indent).path
        value, text := Text.trimmed raw }) :
    (state.read (raw, number)).found.reverse =
      (leaves ++ [leaf]).eraseDupsBy (sameKey ValueEntry.path) := by
  have hRead : (state.read (raw, number)).found =
      if state.found.any (sameKey ValueEntry.path leaf) then state.found
      else leaf :: state.found := by
    rw [read, hKind, hLeaf]
    dsimp only
    rw [hValue]
    rfl
  rw [hRead, eraseDupsBy_concat, ← hFound, List.any_reverse]
  split
  · rw [List.append_nil]
  · rw [List.reverse_cons]

end Scan.ValueState

/-! ## Leaves and their groups -/

/-- Whether a mapping line stands further right than the ancestor; other lines count for nothing. -/
def Ancestor.isLeftOf (ancestor : Ancestor) : Line → Bool
  | .mapping line => ancestor.column < line.indent
  | _ => true

/-- The group that a line opens: the key of a mapping line without a value. -/
def Line.groups : Line → List Ancestor
  | mapping line => if line.value.isNone then [⟨.key line.key, line.indent⟩] else []
  | _ => []

namespace Document

/-- The groups that a line stands in, outermost first: the keys of the mapping lines above it that
have no value and that all mapping lines since, up to and including the line itself, stand right
of. -/
def groupsOf (doc : List Line) (i : Nat) : List Ancestor :=
  (List.range i).flatMap fun j => (lineAt doc j).groups.filter fun a =>
    ∀ k ≤ i, j < k → a.isLeftOf (lineAt doc k) = true

/-- The entry for the mapping line at a place, if it has a value. -/
def leafAt (lines : List String) (i : Nat) : Option ValueEntry :=
  let doc := lines.map Line.classify
  match lineAt doc i with
  | .mapping line => line.value.map fun value =>
    { line := i + 1
      key := line.key
      path := spelled (groupsOf doc i) ++ [.key line.key]
      value
      text := Text.trimmed (lines.getD i "") }
  | _ => none

theorem file_leafAt {lines : List String} {i : Nat} {leaf : ValueEntry}
    (h : leafAt lines i = some leaf) : leaf.file = none := by
  simp only [leafAt] at h
  split at h
  · obtain ⟨value, -, rfl⟩ := Option.map_eq_some_iff.mp h
    rfl
  · exact absurd h (by simp)

theorem groupsOf_eq_kept (doc : List Line) (i : Nat) :
    groupsOf doc i =
      kept (fun j => (lineAt doc j).groups) (fun a k => a.isLeftOf (lineAt doc k)) i :=
  (kept_eq_flatMap _ _ i).symm

/-- The groups that the lines above a place leave open, outermost first. -/
def openGroups (doc : List Line) (i : Nat) : List Ancestor :=
  survivors (fun j => (lineAt doc j).groups) (fun a k => a.isLeftOf (lineAt doc k)) i

theorem openGroups_succ (doc : List Line) (i : Nat) :
    openGroups doc (i + 1) = groupsOf doc i ++ (lineAt doc i).groups := by
  rw [groupsOf_eq_kept]
  exact survivors_succ _ _ i

/-! ## The pass, line by line -/

/-- The state of a pass for the values above the line at a place. -/
structure DescribesValues (lines : List String) (i : Nat) (state : Scan.ValueState) : Prop where
  nested : state.ancestors.Nested
  ancestors : state.ancestors.outermostFirst = openGroups (lines.map Line.classify) i
  found : state.found.reverse =
    ((List.range i).filterMap (leafAt lines)).eraseDupsBy (sameKey ValueEntry.path)

namespace DescribesValues

variable {lines : List String} {i : Nat} {state : Scan.ValueState} {raw : String}

theorem start : DescribesValues lines 0 {} where
  nested := Ancestors.nested_empty
  ancestors := rfl
  found := rfl

/-- A line that is no mapping line changes nothing. -/
theorem pass (h : DescribesValues lines i state)
    (hLine : (lineAt (lines.map Line.classify) i).isMapping = false) :
    DescribesValues lines (i + 1) state where
  nested := h.nested
  ancestors := by
    rw [h.ancestors, openGroups, openGroups, survivors_succ_of_keeps]
    · cases hKind : lineAt (lines.map Line.classify) i <;> simp_all [Line.isMapping, Line.groups]
    · intro a
      cases hKind : lineAt (lines.map Line.classify) i <;>
        simp_all [Line.isMapping, Ancestor.isLeftOf]
  found := by
    have hNone : leafAt lines i = none := by
      rw [leafAt]
      cases hKind : lineAt (lines.map Line.classify) i <;> simp_all [Line.isMapping]
    rw [h.found, List.range_succ, List.filterMap_append]
    simp [hNone]

/-- A mapping line closes the groups that it does not stand in. -/
theorem outermostFirst_close (h : DescribesValues lines i state) {line : MappingLine}
    (hLine : lineAt (lines.map Line.classify) i = .mapping line) :
    (state.ancestors.close line.indent).outermostFirst =
      groupsOf (lines.map Line.classify) i := by
  rw [Ancestors.outermostFirst_close h.nested, h.ancestors, groupsOf_eq_kept, kept, hLine]
  rfl

theorem readGroup (h : DescribesValues lines i state) {line : MappingLine}
    (hLine : lineAt (lines.map Line.classify) i = .mapping line)
    (hKind : Line.classify raw = .mapping line) (hValue : line.value = none) :
    DescribesValues lines (i + 1) (state.read (raw, i + 1)) := by
  have hNone : leafAt lines i = none := by simp [leafAt, hLine, hValue]
  rw [Scan.ValueState.read_of_group hKind hValue]
  constructor
  · exact (h.nested.close line.indent).push fun _ ha => Ancestors.encloses_of_mem_close h.nested ha
  · rw [Ancestors.outermostFirst_push, h.outermostFirst_close hLine, openGroups_succ, hLine]
    simp [Line.groups, hValue]
  · rw [List.range_succ, List.filterMap_append]
    simp [hNone, h.found]

theorem readLeaf (h : DescribesValues lines i state) (hRaw : lines[i]? = some raw)
    {line : MappingLine} {value : String}
    (hLine : lineAt (lines.map Line.classify) i = .mapping line)
    (hKind : Line.classify raw = .mapping line) (hValue : line.value = some value) :
    DescribesValues lines (i + 1) (state.read (raw, i + 1)) := by
  have hPath : ((state.ancestors.close line.indent).push (.key line.key) line.indent).path =
      spelled (groupsOf (lines.map Line.classify) i) ++ [.key line.key] := by
    rw [Ancestors.path_push, Ancestors.path, h.outermostFirst_close hLine]
    rfl
  constructor
  · rw [Scan.ValueState.ancestors_read_of_leaf hKind hValue]
    exact h.nested.close line.indent
  · rw [Scan.ValueState.ancestors_read_of_leaf hKind hValue, h.outermostFirst_close hLine,
      openGroups_succ, hLine]
    simp [Line.groups, hValue]
  · rw [List.range_succ, List.filterMap_append]
    simp only [List.filterMap_cons, List.filterMap_nil, leafAt, hLine, hValue, Option.map_some]
    refine Scan.ValueState.found_read_of_leaf hKind hValue h.found ?_
    rw [hPath, List.getD_eq_getElem?_getD, hRaw, Option.getD_some]

/-- Reading one more line keeps the description. -/
theorem read (h : DescribesValues lines i state) (hRaw : lines[i]? = some raw) :
    DescribesValues lines (i + 1) (state.read (raw, i + 1)) := by
  have hLine := lineAt_map_classify hRaw
  cases hKind : Line.classify raw with
  | mapping line =>
      cases hValue : line.value with
      | none => exact h.readGroup (hLine.trans hKind) hKind hValue
      | some value => exact h.readLeaf hRaw (hLine.trans hKind) hKind hValue
  | _ =>
      have hNot : (Line.classify raw).isMapping = false := by rw [hKind]; rfl
      rw [Scan.ValueState.read_of_not_mapping hNot]
      exact h.pass (hLine ▸ hNot)

end DescribesValues

theorem describesValues (lines : List String) :
    DescribesValues lines lines.length (Scan.runValues lines) :=
  foldl_induction lines DescribesValues.start fun _ _ _ hRaw h => h.read hRaw

end Document

/-- The values are the leaves, in line order, but for those whose path an earlier leaf has. -/
theorem scanValues_eq_leaves (lines : List String) :
    scanValues lines = (List.range lines.length).filterMap fun i =>
      (Document.leafAt lines i).filter fun leaf =>
        ∀ j < i, ∀ earlier ∈ Document.leafAt lines j, earlier.path ≠ leaf.path := by
  rw [scanValues, (Document.describesValues lines).found, eraseDupsBy_filterMap_range]

end YamlIndex
