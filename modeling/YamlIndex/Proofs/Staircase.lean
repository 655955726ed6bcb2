import YamlIndex.Proofs.Values

/-!
# The columns of the open ancestors

Closing looks at the innermost ancestor only, and goes on as long as that one has to go.  It closes
what it should because the columns of the chain go up like stairs, from the outside in; the one step
without a rise is that from a key to a position in its own column.  Every state of a scan has this
shape, and in a pass for the values, where no positions are opened, each step rises.

## Main results

* `Nested.isStepped`, `Nested.rises`: the shape of the chain as one of its columns.
* `columns_of_scan`: the shape in every state of both passes, what closing takes away from it, and
  how long the path of a mapping line is.
-/

namespace YamlIndex

namespace Ancestors

/-- Whether columns do not go down from the outside in, and of two neighbours in one column the
outer one is a key and the inner one a position. -/
structure IsStepped (ancestors : Ancestors) : Prop where
  column_le : ancestors.outermostFirst.Pairwise fun outer inner => outer.column ≤ inner.column
  same_column : ancestors.outermostFirst.IsChain fun outer inner =>
    outer.column = inner.column → outer.segment.isIndex = false ∧ inner.segment.isIndex = true

/-- Whether columns go up from the outside in. -/
def Rises (ancestors : Ancestors) : Prop :=
  ancestors.outermostFirst.Pairwise fun outer inner => outer.column < inner.column

/-- Whether no position is open. -/
def HasKeysOnly (ancestors : Ancestors) : Prop :=
  ∀ a ∈ ancestors.chain, a.segment.isIndex = false

/-- Whether closing at a column takes away just what is to be closed there, wherever it stands in
the chain: a key takes what stands in its column or further right, a marker what stands further
right and the positions in its column. -/
structure ClosesExactly (ancestors : Ancestors) : Prop where
  close : ∀ column, (ancestors.close column).outermostFirst =
    ancestors.outermostFirst.filter fun a => ¬column ≤ a.column
  closeItem : ∀ column, (ancestors.closeItem column).outermostFirst =
    ancestors.outermostFirst.filter fun a =>
      ¬(column < a.column ∨ a.column = column ∧ a.segment.isIndex = true)

variable {ancestors : Ancestors}

theorem Nested.outermostFirst (h : ancestors.Nested) :
    ancestors.outermostFirst.Pairwise Ancestor.Encloses :=
  List.pairwise_reverse.mpr h

theorem Nested.isStepped (h : ancestors.Nested) : ancestors.IsStepped where
  column_le := h.outermostFirst.imp fun hEncloses =>
    hEncloses.elim Nat.le_of_lt fun hSame => Nat.le_of_eq hSame.1
  same_column := by
    refine (h.outermostFirst.imp fun hEncloses hSame => ?_).isChain
    rcases hEncloses with hLess | ⟨-, hShape⟩
    · exact absurd hSame (Nat.ne_of_lt hLess)
    · exact hShape

/-- Only positions share a column with what is outside of them. -/
theorem Nested.rises (h : ancestors.Nested) (hKeys : ancestors.HasKeysOnly) : ancestors.Rises := by
  refine h.outermostFirst.imp_of_mem fun _ hInner hEncloses => ?_
  rcases hEncloses with hLess | ⟨-, -, hIndex⟩
  · exact hLess
  · rw [hKeys _ (List.mem_reverse.mp hInner)] at hIndex
    exact absurd hIndex (by simp)

theorem Nested.closesExactly (h : ancestors.Nested) : ancestors.ClosesExactly where
  close column := by
    rw [outermostFirst_close h]
    refine List.filter_congr fun a _ => ?_
    simp only [Nat.not_le]
  closeItem column := by
    rw [outermostFirst_closeItem h]
    refine List.filter_congr fun a _ => ?_
    rw [Bool.eq_iff_iff]
    cases a.segment.isIndex with
    | false =>
        simp only [Bool.not_false, Bool.and_true, Bool.or_eq_true, decide_eq_true_eq, beq_iff_eq,
          Bool.false_eq_true, and_false, or_false]
        omega
    | true =>
        simp only [Bool.not_true, Bool.and_false, Bool.or_false, decide_eq_true_eq, and_true]
        omega

theorem HasKeysOnly.close (h : ancestors.HasKeysOnly) (column : Nat) :
    (ancestors.close column).HasKeysOnly :=
  fun a ha => h a ((List.dropWhile_sublist _).subset ha)

theorem HasKeysOnly.push (h : ancestors.HasKeysOnly) (key : String) (column : Nat) :
    (ancestors.push (.key key) column).HasKeysOnly :=
  List.forall_mem_cons.mpr ⟨rfl, h⟩

end Ancestors

/-! ## Along both passes -/

namespace Scan

/-- A pass for the values opens no position. -/
theorem hasKeysOnly_read {state : ValueState} (h : state.ancestors.HasKeysOnly)
    (line : String × Nat) : (state.read line).ancestors.HasKeysOnly := by
  unfold ValueState.read
  split
  · dsimp only
    split
    · exact (h.close _).push _ _
    · exact h.close _
  · exact h

theorem hasKeysOnly_runValues (lines : List String) :
    (runValues lines).ancestors.HasKeysOnly :=
  Document.foldl_induction (P := fun _ (state : ValueState) => state.ancestors.HasKeysOnly) lines
    (fun _ ha => absurd ha List.not_mem_nil) fun _ _ _ _ h => hasKeysOnly_read h _

theorem run_concat (lines : List String) (raw : String) :
    run (lines ++ [raw]) = (run lines).read (raw, lines.length + 1) := by
  rw [run, run, List.zipIdx_append, List.foldl_append, Nat.add_comm lines.length]
  rfl

/-- A mapping line gives a step whose path is all that is open behind the line. -/
theorem exists_step_of_mapping (lines : List String) {raw : String} {line : MappingLine}
    (h : Line.classify raw = .mapping line) :
    ∃ step, (steps (lines ++ [raw])).getLast? = some step ∧ step.number = lines.length + 1 ∧
      step.path = (run (lines ++ [raw])).ancestors.path := by
  rw [steps, List.getLast?_reverse, run_concat, State.read, h]
  exact ⟨_, rfl, rfl, rfl⟩

/-- In every state of a scan the columns of the open ancestors are stepped, and closing takes away
just what is to be closed; the path of a mapping line has as many segments as there are ancestors
open behind the line.  In every state of a pass for the values the columns rise, also while a
mapping line is open that closes again at once. -/
theorem columns_of_scan (lines : List String) :
    (run lines).ancestors.IsStepped ∧ (run lines).ancestors.ClosesExactly ∧
      (∀ raw line, Line.classify raw = .mapping line →
        ∃ step, (steps (lines ++ [raw])).getLast? = some step ∧ step.number = lines.length + 1 ∧
          step.path.length = (run (lines ++ [raw])).ancestors.outermostFirst.length) ∧
      (runValues lines).ancestors.Rises ∧ (runValues lines).ancestors.ClosesExactly ∧
        ∀ line : MappingLine, (((runValues lines).ancestors.close line.indent).push (.key line.key)
          line.indent).Rises := by
  have hScan : (run lines).ancestors.Nested := (Document.describes_run lines).nested
  have hValues : (runValues lines).ancestors.Nested := (Document.describesValues lines).nested
  have hKeys := hasKeysOnly_runValues lines
  refine ⟨hScan.isStepped, hScan.closesExactly, ?_, hValues.rises hKeys, hValues.closesExactly, ?_⟩
  · intro raw line hLine
    obtain ⟨step, hStep, hNumber, hPath⟩ := exists_step_of_mapping lines hLine
    refine ⟨step, hStep, hNumber, ?_⟩
    rw [hPath, Ancestors.length_path, Ancestors.outermostFirst, List.length_reverse]
  · intro line
    refine Ancestors.Nested.rises ?_ ((hKeys.close _).push _ _)
    exact (hValues.close _).push fun _ ha => Ancestors.encloses_of_mem_close hValues ha

/-- A position in the column of its key, and the key of the item further right. -/
theorem columns_of_scan_shared :
    (run ["a:", "- b:"]).ancestors.outermostFirst.map Ancestor.column = [0, 0, 2] ∧
      (run ["a:", "- b:"]).ancestors.IsStepped ∧
        ∃ step, (steps (["a:", "- b:"] ++ ["    c: 1"])).getLast? = some step ∧
          step.path.length = 4 := by
  obtain ⟨hStepped, -, hPath, -⟩ := columns_of_scan ["a:", "- b:"]
  have hLine : Line.classify "    c: 1" = .mapping ⟨4, "c", some "1"⟩ := by decide +kernel
  obtain ⟨step, hStep, -, hLength⟩ := hPath "    c: 1" _ hLine
  have hOpen : (run (["a:", "- b:"] ++ ["    c: 1"])).ancestors.outermostFirst.length = 4 := by
    decide +kernel
  exact ⟨by decide +kernel, hStepped, step, hStep, hLength.trans hOpen⟩

end Scan

end YamlIndex
