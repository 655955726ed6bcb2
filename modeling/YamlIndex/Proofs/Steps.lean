import YamlIndex.Scan

/-!
# The steps of a scan

A line adds at most one step, with its own number, so the steps stand in the order of the lines.  It
adds at most one to a count, so no position is above the number of lines.

## Main results

* `Scan.pairwise_steps`: the numbers of the steps go up.
* `Scan.position_le_of_mem_steps`: a position of a scan is at most the number of lines.
* `exists_first`: the first line that is found at or below the path of an entry.
-/

namespace YamlIndex

/-! ## Positions -/

namespace Ancestors

theorem mem_path_close {ancestors : Ancestors} {column : Nat} {segment : Segment}
    (h : segment ∈ (ancestors.close column).path) : segment ∈ ancestors.path := by
  obtain ⟨ancestor, hAncestor, rfl⟩ := List.mem_map.mp h
  have hChain := (List.dropWhile_suffix _).subset (List.mem_reverse.mp hAncestor)
  exact List.mem_map.mpr ⟨ancestor, List.mem_reverse.mpr hChain, rfl⟩

theorem mem_path_closeItem {ancestors : Ancestors} {column : Nat} {segment : Segment}
    (h : segment ∈ (ancestors.closeItem column).path) : segment ∈ ancestors.path := by
  obtain ⟨ancestor, hAncestor, rfl⟩ := List.mem_map.mp h
  have hChain := (List.dropWhile_suffix _).subset (List.mem_reverse.mp hAncestor)
  exact List.mem_map.mpr ⟨ancestor, List.mem_reverse.mpr hChain, rfl⟩

end Ancestors

namespace Scan

/-- No count, no open position and no position of a step is above the number. -/
structure State.IsWithin (state : State) (n : Nat) : Prop where
  counts : ∀ path, state.tally.count path ≤ n
  ancestors : ∀ k, .index k ∈ state.ancestors.path → k ≤ n
  steps : ∀ step ∈ state.steps, ∀ k, .index k ∈ step.path → k ≤ n

section IsWithin

variable {state : State} {n : Nat}

theorem count_reset_le (tally : Tally) (path other : Path) :
    (tally.reset path).count other ≤ tally.count other := by
  rw [Tally.count_reset]
  split
  · exact Nat.zero_le _
  · exact Nat.le_refl _

theorem State.IsWithin.succ (h : state.IsWithin n) : state.IsWithin (n + 1) where
  counts path := Nat.le_succ_of_le (h.counts path)
  ancestors k hk := Nat.le_succ_of_le (h.ancestors k hk)
  steps step hStep k hk := Nat.le_succ_of_le (h.steps step hStep k hk)

theorem State.IsWithin.readMapping (h : state.IsWithin n) (number : Nat) (raw : String)
    (line : MappingLine) : (state.readMapping number raw line).IsWithin n := by
  have hPath : ∀ k, .index k ∈ (state.readMapping number raw line).ancestors.path → k ≤ n := by
    intro k hk
    rw [State.readMapping, Ancestors.path_push] at hk
    rcases List.mem_append.mp hk with hOpen | hKey
    · exact h.ancestors k (Ancestors.mem_path_close hOpen)
    · exact absurd (List.mem_singleton.mp hKey) (by simp)
  refine ⟨fun path => Nat.le_trans (count_reset_le _ _ path) (h.counts path), hPath, ?_⟩
  intro step hStep
  rcases List.mem_cons.mp hStep with rfl | hOld
  · exact hPath
  · exact h.steps step hOld

theorem State.IsWithin.readItem (h : state.IsWithin n) (number : Nat) (raw : String)
    (line : ItemLine) : (state.readItem number raw line).IsWithin (n + 1) := by
  have hCounts : ∀ parent path, (state.tally.bump parent).count path ≤ n + 1 := by
    intro parent path
    rw [Tally.count_bump]
    split
    · exact Nat.succ_le_succ (h.counts parent)
    · exact Nat.le_succ_of_le (Nat.le_trans (count_reset_le _ _ path) (h.counts path))
  have hParents : ∀ k, .index k ∈ (state.ancestors.closeItem line.indent).path → k ≤ n + 1 :=
    fun k hk => Nat.le_succ_of_le (h.ancestors k (Ancestors.mem_path_closeItem hk))
  have hItem : ∀ k, .index k ∈ (state.ancestors.closeItem line.indent).path.child (.index
      ((state.tally.bump (state.ancestors.closeItem line.indent).path).count
        (state.ancestors.closeItem line.indent).path)) → k ≤ n + 1 := by
    intro k hk
    rcases List.mem_append.mp hk with hOpen | hPosition
    · exact hParents k hOpen
    · cases List.mem_singleton.mp hPosition
      exact hCounts _ _
  rw [State.readItem]
  cases line.key with
  | none =>
      refine ⟨hCounts _, hParents, fun step hStep => ?_⟩
      rcases List.mem_cons.mp hStep with rfl | hOld
      · exact hItem
      · exact fun k hk => Nat.le_succ_of_le (h.steps step hOld k hk)
  | some key =>
      have hPath : ∀ k, .index k ∈ ((((state.ancestors.closeItem line.indent).push (.index
          ((state.tally.bump (state.ancestors.closeItem line.indent).path).count
            (state.ancestors.closeItem line.indent).path)) line.indent).push (.key key)
              line.keyIndent).path) → k ≤ n + 1 := by
        intro k hk
        rw [Ancestors.path_push, Ancestors.path_push] at hk
        rcases List.mem_append.mp hk with hOpen | hKey
        · exact hItem k hOpen
        · exact absurd (List.mem_singleton.mp hKey) (by simp)
      refine ⟨hCounts _, hPath, fun step hStep => ?_⟩
      rcases List.mem_cons.mp hStep with rfl | hOld
      · exact hPath
      · exact fun k hk => Nat.le_succ_of_le (h.steps step hOld k hk)

theorem State.IsWithin.read (h : state.IsWithin n) (line : String × Nat) :
    (state.read line).IsWithin (n + 1) := by
  rw [State.read]
  cases Line.classify line.1 with
  | blank => exact h.succ
  | unparsed => exact h.succ
  | mapping mapping => exact (h.readMapping line.2 line.1 mapping).succ
  | item item => exact h.readItem line.2 line.1 item

end IsWithin

/-- A position of a scan is at most the number of lines. -/
theorem position_le_of_mem_steps {lines : List String} {step : Step} (hStep : step ∈ steps lines)
    {k : Nat} (hk : .index k ∈ step.path) : k ≤ lines.length := by
  have hRun : ∀ (rest : List (String × Nat)) (state : State) (n : Nat), state.IsWithin n →
      (rest.foldl State.read state).IsWithin (n + rest.length) := by
    intro rest
    induction rest with
    | nil => exact fun state n h => h
    | cons line rest ih =>
        intro state n h
        have hRest := ih (state.read line) (n + 1) (h.read line)
        rwa [List.length_cons, Nat.add_comm rest.length, ← Nat.add_assoc]
  have hStart : ({} : State).IsWithin 0 := by
    refine ⟨fun path => Nat.le_refl 0, fun k hk => ?_, fun step hStep => ?_⟩
    · exact absurd hk (by simp [Ancestors.path, Ancestors.outermostFirst])
    · exact absurd hStep (by simp)
  have hAll := hRun (lines.zipIdx 1) {} 0 hStart
  rw [List.length_zipIdx, Nat.zero_add] at hAll
  exact hAll.steps step (List.mem_reverse.mp hStep) k hk

/-! ## Order -/

/-- What one more line adds to the steps: nothing, or one with its number and with a path. -/
theorem number_read (state : State) (line : String × Nat) :
    (state.read line).steps = state.steps ∨
      ∃ step, (state.read line).steps = step :: state.steps ∧ step.number = line.2 ∧
        step.path ≠ [] := by
  rw [State.read]
  cases Line.classify line.1 with
  | blank => exact .inl rfl
  | unparsed => exact .inl rfl
  | mapping mapping =>
      refine .inr ⟨_, rfl, rfl, ?_⟩
      rw [Ancestors.path_push, Path.child]
      simp
  | item item =>
      obtain ⟨indent, key, keyIndent, value⟩ := item
      cases key with
      | none =>
          refine .inr ⟨_, rfl, rfl, ?_⟩
          simp [Path.child]
      | some key =>
          refine .inr ⟨_, rfl, rfl, ?_⟩
          rw [Ancestors.path_push, Path.child]
          simp

/-- The steps so far go down in number from below the next one, and have paths. -/
structure State.IsOrdered (state : State) (next : Nat) : Prop where
  descending : state.steps.Pairwise fun later step => step.number < later.number
  below : ∀ step ∈ state.steps, step.number < next
  paths : ∀ step ∈ state.steps, step.path ≠ []

theorem State.IsOrdered.read {state : State} {next : Nat} (h : state.IsOrdered next)
    (raw : String) : (state.read (raw, next)).IsOrdered (next + 1) := by
  have hBelow : ∀ step ∈ state.steps, step.number < next + 1 :=
    fun step hStep => Nat.lt_succ_of_lt (h.below step hStep)
  rcases number_read state (raw, next) with hSame | ⟨added, hAdded, hNumber, hPath⟩
  · rw [← hSame] at hBelow
    exact ⟨hSame ▸ h.descending, hBelow, hSame ▸ h.paths⟩
  · constructor
    · rw [hAdded]
      exact List.pairwise_cons.mpr ⟨fun step hStep => hNumber ▸ h.below step hStep, h.descending⟩
    · intro step hStep
      rw [hAdded] at hStep
      rcases List.mem_cons.mp hStep with rfl | hOld
      · rw [hNumber]
        exact Nat.lt_succ_self next
      · exact hBelow step hOld
    · intro step hStep
      rw [hAdded] at hStep
      rcases List.mem_cons.mp hStep with rfl | hOld
      · exact hPath
      · exact h.paths step hOld

theorem isOrdered_run (lines : List String) : (run lines).IsOrdered (lines.length + 1) := by
  have hRun : ∀ (rest : List String) (state : State) (next : Nat), state.IsOrdered next →
      ((rest.zipIdx next).foldl State.read state).IsOrdered (next + rest.length) := by
    intro rest
    induction rest with
    | nil => exact fun state next h => h
    | cons raw rest ih =>
        intro state next h
        have hRest := ih (state.read (raw, next)) (next + 1) (h.read raw)
        rwa [List.length_cons, Nat.add_comm rest.length, ← Nat.add_assoc]
  have hStart : ({} : State).IsOrdered 1 := ⟨.nil, by simp, by simp⟩
  rw [Nat.add_comm]
  exact hRun lines {} 1 hStart

/-- The steps stand in the order of the lines. -/
theorem pairwise_steps (lines : List String) :
    (steps lines).Pairwise fun step later => step.number < later.number :=
  List.pairwise_reverse.mpr (isOrdered_run lines).descending

end Scan

/-- The first line at or below the path of an entry is there, and no further down than the entry. -/
theorem exists_first {lines : List String} {entry : PathEntry} (hEntry : entry ∈ scanPaths lines) :
    ∃ found first, (findPath entry.path lines none).head? = some found ∧
      first ∈ scanPaths lines ∧ first.line = found.line ∧ found.line ≤ entry.line ∧
        first.path.startsWith entry.path = true := by
  obtain ⟨step, hStep, rfl⟩ := List.mem_map.mp hEntry
  have hPath : step.path ≠ [] :=
    (Scan.isOrdered_run lines).paths step (List.mem_reverse.mp hStep)
  have hOwn : step.path.startsWith step.path = true :=
    Path.startsWith_iff.mpr (List.prefix_refl _)
  have hIn : step ∈ (Scan.steps lines).filter fun other => other.path.startsWith step.path :=
    List.mem_filter.mpr ⟨hStep, hOwn⟩
  obtain ⟨first, rest, hFirst⟩ := List.exists_cons_of_ne_nil (List.ne_nil_of_mem hIn)
  have hMem : first ∈ Scan.steps lines ∧ first.path.startsWith step.path = true :=
    List.mem_filter.mp (hFirst ▸ List.mem_cons_self)
  have hOrder : first.number ≤ step.number := by
    have hAscending := (Scan.pairwise_steps lines).filter fun other =>
      other.path.startsWith step.path
    rw [hFirst] at hIn hAscending
    rcases List.mem_cons.mp hIn with rfl | hLater
    · exact Nat.le_refl _
    · exact Nat.le_of_lt (List.rel_of_pairwise_cons hAscending hLater)
  refine ⟨{ first.entry with path := first.path.take step.path.length }, first.entry, ?_,
    List.mem_map_of_mem hMem.1, rfl, hOrder, hMem.2⟩
  rw [findPath, show step.entry.path = step.path from rfl, if_neg (by simpa using hPath), limited,
    hFirst]
  rfl

end YamlIndex
