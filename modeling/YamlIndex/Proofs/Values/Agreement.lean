import YamlIndex.Proofs.Values
import Mathlib.Data.List.Chain

/-!
# Values among the paths

The scan for paths leaves a key open until a line closes it, and the scan for values closes a key
with a value at once.  Both lead to the same path on a line unless the line stands right of a leaf
that is still open in one of them.  In a document without item lines whose leaves are flat, that is,
where no mapping line stands right of a leaf directly above it, this never happens, and the values
can be read off the index of paths.

## Main results

* `Agree.readMapping`: a mapping line that is not right of a leaf directly above it keeps the two
  scans together.
* `scanValues_eq_leaves_of_paths`: the values are the entries of the index on lines with a value,
  the first one of each path.
-/

namespace YamlIndex

/-- The mapping line that a line is. -/
def Line.mapping? : Line → Option MappingLine
  | mapping line => some line
  | _ => none

/-- The value on a mapping line. -/
def Line.inlineValue? (line : Line) : Option String :=
  line.mapping?.bind MappingLine.value

/-- Whether no mapping line stands right of the mapping line directly above it when that one has a
value. -/
def HasFlatLeaves (lines : List String) : Prop :=
  (lines.filterMap fun line => (Line.classify line).mapping?).IsChain fun line next =>
    line.value.isSome = true → next.indent ≤ line.indent

instance (lines : List String) : Decidable (HasFlatLeaves lines) :=
  inferInstanceAs (Decidable (List.IsChain _ _))

/-- The entry for the value on the line of an entry, if there is one. -/
def PathEntry.leaf? (lines : List String) (entry : PathEntry) : Option ValueEntry :=
  (Line.classify (lines.getD (entry.line - 1) "")).inlineValue?.map fun value =>
    { line := entry.line, key := entry.key, path := entry.path, value, text := entry.text }

/-- The entry for the value on the line of a step, if there is one. -/
def Step.leaf? (step : Step) : Option ValueEntry :=
  (Line.classify step.raw).inlineValue?.map fun value =>
    { line := step.number, key := step.entry.key, path := step.path, value
      text := Text.trimmed step.raw }

namespace Scan

/-! ## Two scans side by side -/

theorem close_push {ancestors : Ancestors} {segment : Segment} {column indent : Nat}
    (h : column ≤ indent) :
    (ancestors.push segment indent).close column = ancestors.close column := by
  rw [Ancestors.close, Ancestors.push, List.dropWhile_cons_of_pos (by simpa using h),
    Ancestors.close]

/-- Whether the two scans have the same ancestors for the next mapping line, when this one does not
stand right of a leaf directly above it, and the values that were found are the first ones of each
path. -/
structure Agree (state : State) (values : ValueState) (last : Option MappingLine) : Prop where
  closes : ∀ column,
    (∀ line ∈ last, line.value.isSome = true → column ≤ line.indent) →
      state.ancestors.close column = values.ancestors.close column
  found : values.found.reverse =
    (state.steps.reverse.filterMap Step.leaf?).eraseDupsBy (sameKey ValueEntry.path)

section Agree

variable {state : State} {values : ValueState} {last : Option MappingLine} {raw : String}
  {line : MappingLine}

theorem agree_start : Agree {} {} none :=
  ⟨fun _ _ => rfl, rfl⟩

/-- A mapping line that does not stand right of a leaf directly above it keeps the two scans
together. -/
theorem Agree.readMapping (h : Agree state values last) (number : Nat)
    (hKind : Line.classify raw = .mapping line)
    (hLast : ∀ above ∈ last, above.value.isSome = true → line.indent ≤ above.indent) :
    Agree (state.readMapping number raw line) (values.read (raw, number)) (some line) := by
  have hParents := h.closes line.indent hLast
  have hSteps : (state.readMapping number raw line).steps.reverse =
      state.steps.reverse ++ [⟨number, raw, some line.key, none,
        ((values.ancestors.close line.indent).push (.key line.key) line.indent).path⟩] := by
    rw [State.readMapping, hParents, List.reverse_cons]
  cases hValue : line.value with
  | none =>
      rw [ValueState.read_of_group hKind hValue]
      constructor
      · -- Both scans leave the key open.
        intro column _
        show ((state.ancestors.close line.indent).push _ _).close column = _
        rw [hParents]
      · rw [hSteps, List.filterMap_append]
        simp [Step.leaf?, Line.inlineValue?, hKind, Line.mapping?, hValue, h.found]
  | some value =>
      constructor
      · -- Only one scan leaves the leaf open, and the next line closes it.
        intro column hColumn
        have hNext : column ≤ line.indent := hColumn line rfl (by rw [hValue]; rfl)
        show ((state.ancestors.close line.indent).push _ _).close column = _
        rw [close_push hNext, hParents, ValueState.ancestors_read_of_leaf hKind hValue]
      · rw [hSteps, List.filterMap_append]
        simp only [List.filterMap_cons, List.filterMap_nil, Step.leaf?, Line.inlineValue?, hKind,
          Line.mapping?, Option.bind_some, hValue, Option.map_some]
        exact ValueState.found_read_of_leaf hKind hValue h.found rfl

/-- A line without structure changes neither of the scans. -/
theorem Agree.pass (h : Agree state values last) (number : Nat)
    (hKind : (Line.classify raw).isStructural = false) :
    Agree (state.read (raw, number)) (values.read (raw, number)) last := by
  have hState : state.read (raw, number) = state := by
    rw [State.read]
    cases hLine : Line.classify raw <;> simp_all [Line.isStructural]
  have hValues : values.read (raw, number) = values := by
    refine ValueState.read_of_not_mapping ?_
    cases hLine : Line.classify raw <;> simp_all [Line.isStructural, Line.isMapping]
  rw [hState, hValues]
  exact h

/-- The two scans stay together along lines without items whose leaves are flat. -/
theorem Agree.foldl (lines : List String) {state : State} {values : ValueState}
    {last : Option MappingLine} (h : Agree state values last) (number : Nat)
    (hItems : ∀ line ∈ lines, (Line.classify line).isItem = false)
    (hFlat : (last.toList ++ lines.filterMap fun line => (Line.classify line).mapping?).IsChain
      fun line next => line.value.isSome = true → next.indent ≤ line.indent) :
    ∃ final, Agree ((lines.zipIdx number).foldl State.read state)
      ((lines.zipIdx number).foldl ValueState.read values) final := by
  induction lines generalizing state values last number with
  | nil => exact ⟨last, h⟩
  | cons raw lines ih =>
      obtain ⟨hItem, hItems⟩ := List.forall_mem_cons.mp hItems
      rw [List.zipIdx_cons, List.foldl_cons, List.foldl_cons]
      cases hKind : Line.classify raw with
      | blank =>
          simp only [List.filterMap_cons, hKind, Line.mapping?] at hFlat
          exact ih (h.pass number (by rw [hKind]; rfl)) (number + 1) hItems hFlat
      | unparsed =>
          simp only [List.filterMap_cons, hKind, Line.mapping?] at hFlat
          exact ih (h.pass number (by rw [hKind]; rfl)) (number + 1) hItems hFlat
      | mapping line =>
          simp only [List.filterMap_cons, hKind, Line.mapping?] at hFlat
          obtain ⟨-, hBelow, hLast⟩ := List.isChain_append.mp hFlat
          have hRead : state.read (raw, number) = state.readMapping number raw line := by
            rw [State.read, hKind]
          rw [hRead]
          refine ih (h.readMapping number hKind ?_) (number + 1) hItems hBelow
          intro above hAbove
          refine hLast above ?_ line rfl
          rw [Option.mem_def.mp hAbove]
          rfl
      | item item => simp [hKind, Line.isItem] at hItem

end Agree

end Scan

/-! ## Values from the index of paths -/

/-- A step carries the line that its entry stands on. -/
theorem filterMap_leaf?_scanPaths (lines : List String) :
    (scanPaths lines).filterMap (PathEntry.leaf? lines) =
      (Scan.steps lines).filterMap Step.leaf? := by
  rw [scanPaths, List.filterMap_map]
  refine List.filterMap_congr ?_
  intro step hStep
  rw [Scan.steps, (Document.describes_run lines).steps] at hStep
  obtain ⟨i, -, rfl⟩ := List.mem_map.mp hStep
  rfl

/-- In a document without items whose leaves are flat, the values are the entries of the index that
stand on lines with a value, the first one of each path. -/
theorem scanValues_eq_leaves_of_paths {lines : List String}
    (hItems : ∀ line ∈ lines, (Line.classify line).isItem = false) (hFlat : HasFlatLeaves lines) :
    scanValues lines = ((scanPaths lines).filterMap (PathEntry.leaf? lines)).eraseDupsBy
      (sameKey ValueEntry.path) := by
  obtain ⟨final, hAgree⟩ := Scan.agree_start.foldl lines 1 hItems hFlat
  rw [filterMap_leaf?_scanPaths, scanValues, Scan.runValues, hAgree.found, Scan.steps, Scan.run]

/-- A key is repeated, and with it a leaf below it.  The first value of the path is the one that
counts, and all values are those of the index. -/
theorem scanValues_eq_leaves_of_paths_repeated :
    let lines := ["metadata:", "  name: first", "  # labels", "  labels:", "    app: web",
      "metadata:", "  name: second"]
    HasFlatLeaves lines ∧ (scanPaths lines).length = 6 ∧
      (scanValues lines).map ValueEntry.value = ["first", "web"] := by
  intro lines
  have hItems : ∀ line ∈ lines, (Line.classify line).isItem = false := by decide
  have hFlat : HasFlatLeaves lines := by decide
  refine ⟨hFlat, by decide, ?_⟩
  rw [scanValues_eq_leaves_of_paths hItems hFlat]
  decide

end YamlIndex
