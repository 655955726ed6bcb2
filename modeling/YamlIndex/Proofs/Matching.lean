import YamlIndex.Association

/-!
# Claims in document order

When the lines carry just the keys that the outline has, in the same order, then every line claims
the entry that is next: the search ahead of the entry claimed last ends at its first candidate.
That a key occurs many times does no harm here, for no line ever looks further than that.

The lines with a key are also the steps of the scan with a key, so an index by indentation and an
index from a tree speak of the same lines.

## Main results

* `associate_eq_zipWith`, `map_entry_associate`: lines and entries with the same keys are tied in
  pairs, and none is left over.
* `associate_in_order`: the line at each place is tied to the entry at this place.
* `Scan.keyed_steps`: the steps with a key are the lines with a key.
-/

namespace YamlIndex

/-- The key that a path ends in, if it ends in one. -/
def Path.lastKey? (path : Path) : Option String :=
  path.getLast?.bind Segment.key?

theorem Path.lastKey?_child (path : Path) (segment : Segment) :
    (path.child segment).lastKey? = segment.key? := by
  simp [Path.lastKey?, Path.child]

/-- A line and its number with the key it carries in front. -/
abbrev KeyedLine := String × String × Nat

/-- The line with its key in front, when it carries one. -/
def keyedLine? (line : String × Nat) : Option KeyedLine :=
  (Line.classify line.1).key?.map fun key => (key, line)

/-- The lines that carry a key, counted from one. -/
def keyedLines (lines : List String) : List KeyedLine :=
  (lines.zipIdx 1).filterMap keyedLine?

/-- The entries of an outline that end in a key, in document order. -/
def candidates (outline : List OutlineEntry) : List Candidate :=
  (Unclaimed.ofOutline outline).ahead

theorem candidates_map_fst (outline : List OutlineEntry) :
    (candidates outline).map Prod.fst = outline.filterMap OutlineEntry.key? := by
  rw [candidates, Unclaimed.ofOutline, List.map_filterMap]
  refine congrArg (List.filterMap · outline) (funext fun entry => ?_)
  cases entry.key? <;> rfl

theorem candidates_map_snd (outline : List OutlineEntry) :
    (candidates outline).map Prod.snd = outline.filter fun entry => entry.key?.isSome := by
  induction outline with
  | nil => rfl
  | cons entry outline ih =>
      rw [candidates, Unclaimed.ofOutline] at ih ⊢
      cases hKey : entry.key? with
      | none => simp [hKey, ih]
      | some key => simp [hKey, ih]

theorem key?_of_mem_candidates {outline : List OutlineEntry} {candidate : Candidate}
    (h : candidate ∈ candidates outline) : candidate.2.key? = some candidate.1 := by
  obtain ⟨entry, -, hCandidate⟩ := List.mem_filterMap.mp h
  obtain ⟨key, hKey, rfl⟩ := Option.map_eq_some_iff.mp hCandidate
  exact hKey

/-! ## Pairs -/

namespace Association

/-- A line and the entry it has claimed. -/
def pair (line : KeyedLine) (candidate : Candidate) : Tied :=
  ⟨line.2.2, Text.trimmed line.2.1, candidate.2⟩

theorem claim?_head (passed : List Candidate) (candidate : Candidate) (ahead : List Candidate) :
    (Unclaimed.mk passed (candidate :: ahead)).claim? candidate.1 =
      some (candidate.2, ⟨passed, ahead⟩) := by
  rw [Unclaimed.claim?, Unclaimed.seek?, if_pos rfl]
  rfl

theorem read_of_keyless {line : String × Nat} (h : keyedLine? line = none) (state : State) :
    state.read line = state := by
  rw [keyedLine?, Option.map_eq_none_iff] at h
  rw [State.read, h]

/-- A line whose key is that of the next candidate claims this one. -/
theorem read_of_head {line : String × Nat} {key : String} {candidate : Candidate}
    (h : keyedLine? line = some (key, line)) (hKey : key = candidate.1)
    (passed ahead : List Candidate) (tied : List Tied) :
    State.read ⟨⟨passed, candidate :: ahead⟩, tied⟩ line =
      ⟨⟨passed, ahead⟩, pair (key, line) candidate :: tied⟩ := by
  have hClassify : (Line.classify line.1).key? = some key := by
    rw [keyedLine?, Option.map_eq_some_iff] at h
    obtain ⟨other, hOther, hEq⟩ := h
    rw [Prod.mk.injEq] at hEq
    rw [hOther, hEq.1]
  subst hKey
  simp only [State.read, hClassify, claim?_head]
  rfl

/-- While the keys agree, the lines go through the candidates one by one. -/
theorem foldl_read {lines : List (String × Nat)} {ahead : List Candidate}
    (hKeys : (lines.filterMap keyedLine?).map Prod.fst = ahead.map Prod.fst)
    (passed : List Candidate) (tied : List Tied) :
    (lines.foldl State.read ⟨⟨passed, ahead⟩, tied⟩).tied =
      (List.zipWith pair (lines.filterMap keyedLine?) ahead).reverse ++ tied := by
  induction lines generalizing ahead tied with
  | nil => rfl
  | cons line lines ih =>
      cases hLine : keyedLine? line with
      | none =>
          rw [List.filterMap_cons_none hLine] at hKeys ⊢
          rw [List.foldl_cons, read_of_keyless hLine]
          exact ih hKeys tied
      | some keyed =>
          have hPair : keyed.2 = line := by
            rw [keyedLine?, Option.map_eq_some_iff] at hLine
            obtain ⟨key, -, rfl⟩ := hLine
            rfl
          obtain ⟨key, raw⟩ := keyed
          dsimp only at hPair
          subst hPair
          rw [List.filterMap_cons_some hLine, List.map_cons] at hKeys
          obtain ⟨candidate, ahead, rfl, hHead, hRest⟩ := List.map_eq_cons_iff.mp hKeys.symm
          rw [List.filterMap_cons_some hLine, List.foldl_cons,
            read_of_head hLine hHead.symm, ih hRest.symm, List.zipWith_cons_cons,
            List.reverse_cons, List.append_assoc, List.singleton_append]

end Association

/-- Lines and entries with the same keys in the same order are tied in pairs. -/
theorem associate_eq_zipWith {outline : List OutlineEntry} {lines : List String}
    (hKeys : (keyedLines lines).map Prod.fst = outline.filterMap OutlineEntry.key?) :
    associate outline lines =
      List.zipWith Association.pair (keyedLines lines) (candidates outline) := by
  rw [← candidates_map_fst] at hKeys
  have hFold := Association.foldl_read hKeys [] []
  rw [List.append_nil] at hFold
  rw [associate]
  exact (congrArg List.reverse hFold).trans (List.reverse_reverse _)

theorem map_entry_zipWith {lines : List KeyedLine} {candidates : List Candidate}
    (hLength : lines.length = candidates.length) :
    (List.zipWith Association.pair lines candidates).map Tied.entry =
      candidates.map Prod.snd := by
  induction lines generalizing candidates with
  | nil =>
      rw [List.eq_nil_of_length_eq_zero hLength.symm]
      rfl
  | cons line lines ih =>
      cases candidates with
      | nil => exact absurd hLength (by simp)
      | cons candidate candidates =>
          have hRest := ih (by simpa using hLength : lines.length = candidates.length)
          rw [List.zipWith_cons_cons, List.map_cons, hRest]
          rfl

/-- Then no entry with a key is left over. -/
theorem map_entry_associate {outline : List OutlineEntry} {lines : List String}
    (hKeys : (keyedLines lines).map Prod.fst = outline.filterMap OutlineEntry.key?) :
    (associate outline lines).map Tied.entry = outline.filter fun entry => entry.key?.isSome := by
  have hLength : (keyedLines lines).length = (candidates outline).length := by
    rw [← List.length_map (f := Prod.fst), hKeys, ← candidates_map_fst, List.length_map]
  rw [associate_eq_zipWith hKeys, map_entry_zipWith hLength, candidates_map_snd]

/-- **Lines and entries in the same order are tied one by one.**  When the keys on the lines are the
last segments of the entries that end in a key, in the same order, there are as many lines with a
key as such entries, and the line at each place is tied to the entry at this place. -/
theorem associate_in_order {outline : List OutlineEntry} {lines : List String}
    (hKeys : (keyedLines lines).map Prod.fst = outline.filterMap OutlineEntry.key?) :
    (associate outline lines).length = (keyedLines lines).length ∧
      (associate outline lines).length =
        (outline.filter fun entry => entry.key?.isSome).length ∧
      ∀ (i : Nat) (key raw : String) (number : Nat) (entry : OutlineEntry),
        (keyedLines lines)[i]? = some (key, raw, number) →
        (outline.filter fun entry => entry.key?.isSome)[i]? = some entry →
          entry.key? = some key ∧
            (associate outline lines)[i]? = some ⟨number, Text.trimmed raw, entry⟩ := by
  have hFirsts : (keyedLines lines).map Prod.fst = (candidates outline).map Prod.fst :=
    hKeys.trans (candidates_map_fst outline).symm
  have hLength : (keyedLines lines).length = (candidates outline).length := by
    rw [← List.length_map (f := Prod.fst), hFirsts, List.length_map]
  rw [associate_eq_zipWith hKeys, ← candidates_map_snd, List.length_zipWith, List.length_map,
    ← hLength, Nat.min_self]
  refine ⟨rfl, rfl, fun i key raw number entry hLine hEntry => ?_⟩
  rw [List.getElem?_map, Option.map_eq_some_iff] at hEntry
  obtain ⟨candidate, hCandidate, rfl⟩ := hEntry
  have hFirst : some key = some candidate.1 := by
    have hAt := congrArg (·[i]?) hFirsts
    simpa only [List.getElem?_map, hLine, hCandidate, Option.map_some] using hAt
  refine ⟨?_, ?_⟩
  · rw [hFirst]
    exact key?_of_mem_candidates (List.mem_of_getElem? hCandidate)
  · rw [List.getElem?_zipWith, hLine, hCandidate]
    rfl

/-- A sequence of mappings that repeat a key. -/
def twoNames : Node :=
  .mapping
    [("items", .sequence [.mapping [("name", .scalar "a")], .mapping [("name", .scalar "a")]])]

theorem associate_in_order_two_names :
    (keyedLines ["items:", "- name: a", "", "- name: a"]).map Prod.fst =
        twoNames.outline.filterMap OutlineEntry.key? ∧
      (associate twoNames.outline ["items:", "- name: a", "", "- name: a"])[2]? =
        some ⟨4, "- name: a", [.key "items", .index 2, .key "name"], some "a", some 2⟩ := by
  have hKeys : (keyedLines ["items:", "- name: a", "", "- name: a"]).map Prod.fst =
      twoNames.outline.filterMap OutlineEntry.key? := by decide +kernel
  exact ⟨hKeys, ((associate_in_order hKeys).2.2 2 "name" "- name: a" 4 _
    (by decide +kernel) (by decide +kernel)).2⟩

/-! ## Keys of the scan -/

namespace Scan

/-- The line of a step, with the key in front when the step has one. -/
def keyedStep? (step : Step) : Option KeyedLine :=
  step.key.map fun key => (key, step.raw, step.number)

/-- What one more line adds to the steps: nothing, or one for this line with its key, on a path
that ends in this key. -/
theorem steps_read (state : State) (line : String × Nat) :
    ((state.read line).steps = state.steps ∧ keyedLine? line = none) ∨
      ∃ step, (state.read line).steps = step :: state.steps ∧
        keyedStep? step = keyedLine? line ∧ step.path.lastKey? = step.key := by
  cases hLine : Line.classify line.1 with
  | blank => exact .inl ⟨by rw [State.read, hLine], by rw [keyedLine?, hLine]; rfl⟩
  | unparsed => exact .inl ⟨by rw [State.read, hLine], by rw [keyedLine?, hLine]; rfl⟩
  | mapping mapping =>
      refine .inr ⟨_, by rw [State.read, hLine]; rfl, by rw [keyedLine?, hLine]; rfl, ?_⟩
      rw [Ancestors.path_push, Path.lastKey?_child]
      rfl
  | item item =>
      obtain ⟨indent, key, keyIndent, value⟩ := item
      cases key with
      | none =>
          refine .inr ⟨_, by rw [State.read, hLine]; rfl, by rw [keyedLine?, hLine]; rfl, ?_⟩
          exact Path.lastKey?_child _ _
      | some key =>
          refine .inr ⟨_, by rw [State.read, hLine]; rfl, by rw [keyedLine?, hLine]; rfl, ?_⟩
          rw [Ancestors.path_push, Path.lastKey?_child]
          rfl

/-- A stretch of lines adds the steps of its lines with a key, and further ones without. -/
theorem keyed_foldl_read (lines : List (String × Nat)) (state : State) :
    ((lines.foldl State.read state).steps.reverse).filterMap keyedStep? =
      state.steps.reverse.filterMap keyedStep? ++ lines.filterMap keyedLine? := by
  induction lines generalizing state with
  | nil => simp
  | cons line lines ih =>
      rw [List.foldl_cons, ih]
      rcases steps_read state line with ⟨hSteps, hKey⟩ | ⟨step, hSteps, hKey, -⟩
      · rw [hSteps, List.filterMap_cons_none hKey]
      · rw [hSteps, List.reverse_cons, List.filterMap_append, List.append_assoc,
          List.filterMap_cons, List.filterMap_nil, hKey]
        refine congrArg (_ ++ ·) ?_
        cases hLine : keyedLine? line with
        | none => rw [List.filterMap_cons_none hLine, List.nil_append]
        | some keyed => rw [List.filterMap_cons_some hLine, List.singleton_append]

theorem keyed_steps (lines : List String) :
    (steps lines).filterMap keyedStep? = keyedLines lines := by
  rw [steps, run, keyed_foldl_read, keyedLines]
  rfl

/-- The path of a step ends in the key of its line, and in a position when the line has none. -/
theorem lastKey?_of_mem_steps {lines : List String} {step : Step} (h : step ∈ steps lines) :
    step.path.lastKey? = step.key := by
  have hRun : ∀ (rest : List (String × Nat)) (state : State),
      (∀ s ∈ state.steps, s.path.lastKey? = s.key) →
        ∀ s ∈ (rest.foldl State.read state).steps, s.path.lastKey? = s.key := by
    intro rest
    induction rest with
    | nil => exact fun state hState => hState
    | cons line rest ih =>
        intro state hState
        refine ih (state.read line) fun s hs => ?_
        rcases steps_read state line with ⟨hSteps, -⟩ | ⟨added, hSteps, -, hKey⟩
        · exact hState s (hSteps ▸ hs)
        · rw [hSteps, List.mem_cons] at hs
          rcases hs with rfl | hs
          · exact hKey
          · exact hState s hs
  rw [steps, List.mem_reverse] at h
  exact hRun _ _ (by simp) step h

end Scan

end YamlIndex
