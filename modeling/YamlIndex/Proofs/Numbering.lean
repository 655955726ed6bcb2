import YamlIndex.Proofs.Ancestry

/-!
# Numbering the items of a parent

A parent is not a path but one open ancestor: when a key occurs a second time under the same path,
its items are those of another parent.  The scan counts items by path, and forgets the count of a
path at each mapping line that leads to it.  That is the same as counting by parent as long as the
parent was opened by a mapping line.  Behind a marker a key, and the position in front of it, are
opened without any count being forgotten; when an enclosing key is repeated, the same path can come
up again, and then the items go on from the earlier ones.

So the number of an item is one more than its elder siblings and the *strays*, the items of other
parents with the same path that have not been forgotten.

## Main results

* `frames_eq_of_parent?_eq`: two lines with the same parent have the same context.
* `position_eq_siblings_add_strays`: what an item is numbered.
* `position_counts_siblings`: the same for the entries of an index, with two conditions under which
  there are no strays: the parent stands on a mapping line, or no key is repeated.
-/

namespace YamlIndex.Document

/-! ## Ancestors with their lines -/

/-- An ancestor together with the line that opened it. -/
structure Frame where
  opener : Nat
  ancestor : Ancestor
  deriving DecidableEq, Repr

/-- The frames that a line opens. -/
def framesAt (doc : List Line) (i : Nat) : List Frame :=
  (opened doc i).map (Frame.mk i)

/-- The context of a line, with the line that opened each ancestor. -/
def frames (doc : List Line) (i : Nat) : List Frame :=
  (List.range i).flatMap fun j => (framesAt doc j).filter fun f =>
    ∀ k ≤ i, j < k → f.ancestor.survives (lineAt doc k) = true

/-- The innermost ancestor of a line. -/
def parent? (doc : List Line) (i : Nat) : Option Frame :=
  (frames doc i).getLast?

section Frames

variable {doc : List Line} {i j : Nat} {f : Frame}

theorem frames_eq_kept (doc : List Line) (i : Nat) :
    frames doc i = kept (framesAt doc) (fun f k => f.ancestor.survives (lineAt doc k)) i :=
  (kept_eq_flatMap _ _ i).symm

theorem map_ancestor_framesAt (doc : List Line) (i : Nat) :
    (framesAt doc i).map Frame.ancestor = opened doc i := by
  rw [framesAt, List.map_map]
  exact List.map_id _

theorem map_ancestor_frames (doc : List Line) (i : Nat) :
    (frames doc i).map Frame.ancestor = context doc i := by
  rw [frames_eq_kept, context_eq_kept,
    map_kept (fun (a : Ancestor) k => a.survives (lineAt doc k)) Frame.ancestor fun _ _ => rfl]
  simp only [map_ancestor_framesAt]

theorem length_frames (doc : List Line) (i : Nat) :
    (frames doc i).length = (spelled (context doc i)).length := by
  rw [← map_ancestor_frames, spelled, List.length_map, List.length_map]

theorem opener_of_mem_framesAt (h : f ∈ framesAt doc i) : f.opener = i := by
  obtain ⟨a, -, rfl⟩ := List.mem_map.mp h
  rfl

theorem opener_lt_of_mem_frames (h : f ∈ frames doc i) : f.opener < i := by
  obtain ⟨j, hj, hOpened⟩ := List.mem_flatMap.mp h
  rw [opener_of_mem_framesAt (List.mem_of_mem_filter hOpened)]
  exact List.mem_range.mp hj

theorem spelled_of_parent?_eq_none (h : parent? doc i = none) : spelled (context doc i) = [] := by
  rw [← map_ancestor_frames, List.getLast?_eq_none_iff.mp h]
  rfl

end Frames

section Stack

variable {lines : List String} {i j : Nat} {f : Frame}

theorem pairwise_encloses_survivors (lines : List String) (i : Nat) :
    (survivors (framesAt (lines.map Line.classify))
      (fun f k => f.ancestor.survives (lineAt (lines.map Line.classify) k)) i).Pairwise
        fun outer inner => outer.ancestor.Encloses inner.ancestor := by
  rw [← List.pairwise_map, map_survivors (fun (a : Ancestor) k => a.survives
    (lineAt (lines.map Line.classify) k)) Frame.ancestor fun _ _ => rfl]
  simp only [map_ancestor_framesAt]
  exact encloses_stillOpen lines i

theorem isStack_framesAt (lines : List String) :
    IsStack (framesAt (lines.map Line.classify))
      fun f k => f.ancestor.survives (lineAt (lines.map Line.classify) k) :=
  fun i => (pairwise_encloses_survivors lines i).imp fun hEncloses hInner =>
    hEncloses.survives hInner

/-- No ancestor encloses itself, so none is open twice. -/
theorem nodup_frames (lines : List String) (i : Nat) :
    (frames (lines.map Line.classify) i).Nodup := by
  rw [frames_eq_kept]
  refine ((pairwise_encloses_survivors lines i).imp ?_).filter _
  rintro outer inner hEncloses rfl
  rcases hEncloses with hLt | ⟨-, hKey, hIndex⟩
  · exact Nat.lt_irrefl _ hLt
  · exact absurd (hKey.symm.trans hIndex) (by simp)

/-- As long as its parent is open, the context of a line is a front part of all later contexts. -/
theorem frames_prefix_frames (hParent : parent? (lines.map Line.classify) i = some f)
    (hOpener : f.opener < j) (hji : j ≤ i) :
    frames (lines.map Line.classify) i <+: frames (lines.map Line.classify) j := by
  obtain ⟨stem, younger, hSplit, hStem, hYounger⟩ := (isStack_framesAt lines).exists_stem hji
  rw [← frames_eq_kept] at hSplit hStem
  rcases List.eq_nil_or_concat' younger with rfl | ⟨others, last, rfl⟩
  · rw [hSplit, List.append_nil]
    exact hStem
  · -- The parent would be younger than the line at `j`.
    rw [parent?, hSplit, ← List.append_assoc, List.getLast?_concat, Option.some.injEq] at hParent
    obtain ⟨m, hm, hMem⟩ := hYounger last (by simp)
    rw [hParent] at hMem
    have := opener_of_mem_framesAt hMem
    omega

/-- Two lines with the same parent have the same context. -/
theorem frames_eq_of_parent?_eq (hji : j ≤ i)
    (h : parent? (lines.map Line.classify) j = parent? (lines.map Line.classify) i) :
    frames (lines.map Line.classify) j = frames (lines.map Line.classify) i := by
  cases hParent : parent? (lines.map Line.classify) i with
  | none =>
      rw [hParent] at h
      rw [List.getLast?_eq_none_iff.mp h, List.getLast?_eq_none_iff.mp hParent]
  | some f =>
      rw [hParent] at h
      have hMem : f ∈ frames (lines.map Line.classify) i := List.mem_of_getLast? hParent
      obtain ⟨rest, hRest⟩ := frames_prefix_frames hParent
        (opener_lt_of_mem_frames (List.mem_of_getLast? h)) hji
      rcases List.eq_nil_or_concat' rest with rfl | ⟨others, last, rfl⟩
      · rw [← hRest, List.append_nil]
      · have hNodup := nodup_frames lines j
        rw [← hRest, List.nodup_append] at hNodup
        rw [parent?, ← hRest, ← List.append_assoc, List.getLast?_concat, Option.some.injEq] at h
        exact absurd rfl (hNodup.2.2 f hMem f (by simp [h]))

end Stack

/-! ## Siblings and strays -/

/-- How many item lines above a line have the same parent. -/
def siblings (doc : List Line) (i : Nat) : Nat :=
  (List.range i).countP fun j => (lineAt doc j).isItem ∧ parent? doc j = parent? doc i

/-- Whether the line at `j` is an item line that has another parent than the one at `i` with the
same path, and no mapping line between the two leads to this path. -/
def IsStray (doc : List Line) (i j : Nat) : Prop :=
  (lineAt doc j).isItem = true ∧ parent? doc j ≠ parent? doc i ∧
    spelled (context doc j) = spelled (context doc i) ∧
      ∀ k < i, j < k → (lineAt doc k).isMapping = true → path doc k ≠ spelled (context doc i)

instance (doc : List Line) (i j : Nat) : Decidable (IsStray doc i j) :=
  inferInstanceAs (Decidable (_ ∧ _ ∧ _ ∧ _))

/-- How many strays an item has. -/
def strays (doc : List Line) (i : Nat) : Nat :=
  (List.range i).countP fun j => IsStray doc i j

section Strays

variable {lines : List String} {i j : Nat} {f : Frame}

theorem strays_eq_zero_iff (doc : List Line) (i : Nat) :
    strays doc i = 0 ↔ ∀ j < i, ¬ IsStray doc i j := by
  simp [strays, List.countP_eq_zero]

/-- No mapping line between two lines with the same parent leads to the path of this parent. -/
theorem path_ne_of_parent?_eq {k : Nat} (hjk : j < k) (hki : k < i)
    (h : parent? (lines.map Line.classify) j = parent? (lines.map Line.classify) i)
    (hMapping : (lineAt (lines.map Line.classify) k).isMapping = true) :
    path (lines.map Line.classify) k ≠ spelled (context (lines.map Line.classify) i) := by
  intro hPath
  have hLength : (path (lines.map Line.classify) k).length =
      (frames (lines.map Line.classify) k).length + 1 := by
    rw [path, List.length_append, length_frames]
    cases hLine : lineAt (lines.map Line.classify) k <;> simp_all [Line.isMapping, Line.adds]
  rw [hPath, ← length_frames] at hLength
  cases hParent : parent? (lines.map Line.classify) i with
  | none => simp [List.getLast?_eq_none_iff.mp hParent] at hLength
  | some f =>
      rw [hParent] at h
      have hOpener := opener_lt_of_mem_frames (List.mem_of_getLast? h)
      have hPrefix := frames_prefix_frames hParent (Nat.lt_trans hOpener hjk) (Nat.le_of_lt hki)
      have := hPrefix.length_le
      omega

/-- An item line above is counted when it has the same parent, and when it is a stray. -/
theorem countsAt_iff (hji : j < i) :
    countsAt (lines.map Line.classify) i (spelled (context (lines.map Line.classify) i)) j = true ↔
      ((lineAt (lines.map Line.classify) j).isItem = true ∧
        parent? (lines.map Line.classify) j = parent? (lines.map Line.classify) i) ∨
          IsStray (lines.map Line.classify) i j := by
  rw [countsAt, decide_eq_true_eq]
  constructor
  · rintro ⟨hItem, hContext, hBetween⟩
    by_cases hParent : parent? (lines.map Line.classify) j = parent? (lines.map Line.classify) i
    · exact .inl ⟨hItem, hParent⟩
    · exact .inr ⟨hItem, hParent, hContext, hBetween⟩
  · rintro (⟨hItem, hParent⟩ | ⟨hItem, -, hContext, hBetween⟩)
    · refine ⟨hItem, ?_, fun k hki hjk => path_ne_of_parent?_eq hjk hki hParent⟩
      rw [← map_ancestor_frames, frames_eq_of_parent?_eq (Nat.le_of_lt hji) hParent,
        map_ancestor_frames]
    · exact ⟨hItem, hContext, hBetween⟩

/-- Alternatives that exclude each other are counted one by one. -/
theorem countP_or {α : Type} {p q r : α → Bool} {xs : List α}
    (h : ∀ x ∈ xs, p x = true ↔ q x = true ∨ r x = true)
    (hNot : ∀ x ∈ xs, q x = true → r x = false) : xs.countP p = xs.countP q + xs.countP r := by
  induction xs with
  | nil => rfl
  | cons x xs ih =>
      rw [List.forall_mem_cons] at h hNot
      rw [List.countP_cons, List.countP_cons, List.countP_cons, ih h.2 hNot.2]
      have hOne := h.1
      have hOther := hNot.1
      cases hp : p x <;> cases hq : q x <;> cases hr : r x <;> simp_all <;> omega

/-- An item is numbered one more than its elder siblings and its strays. -/
theorem position_eq_siblings_add_strays (lines : List String) (i : Nat) :
    position (lines.map Line.classify) i =
      1 + siblings (lines.map Line.classify) i + strays (lines.map Line.classify) i := by
  rw [position_eq, itemsSince, siblings, strays, Nat.add_assoc]
  congr 1
  refine countP_or ?_ ?_
  · intro j hj
    simp only [countsAt_iff (List.mem_range.mp hj), decide_eq_true_eq]
  · intro j _ hSame
    simp only [decide_eq_true_eq, decide_eq_false_iff_not] at hSame ⊢
    exact fun hStray => hStray.2.1 hSame.2

/-! ## When there are no strays -/

/-- The parent of a line adds the last segment of the path of its context. -/
theorem adds_parent (hParent : parent? (lines.map Line.classify) i = some f) :
    f.opener < i ∧
      Adds (lines.map Line.classify) f.opener (spelled (context (lines.map Line.classify) i)) := by
  obtain ⟨below, hBelow⟩ := List.getLast?_eq_some_iff.mp hParent
  have hPrefix := (isStack_framesAt lines).kept_prefix_survivors i
  rw [← frames_eq_kept, hBelow] at hPrefix
  obtain ⟨m, hm, before, hOpened, hSplit⟩ := (isStack_framesAt lines).exists_origin hPrefix
  obtain rfl : f.opener = m := opener_of_mem_framesAt (hOpened.subset (by simp))
  refine ⟨hm, spelled ((before ++ [f]).map Frame.ancestor), by simp [spelled], ?_, ?_⟩
  · refine List.IsPrefix.trans ?_ (spelled_opened_prefix_adds _ f.opener)
    rw [← map_ancestor_framesAt]
    exact (hOpened.map Frame.ancestor).map Ancestor.segment
  · rw [← map_ancestor_frames _ i, hBelow, hSplit, ← frames_eq_kept, List.append_assoc,
      List.map_append, map_ancestor_frames]
    exact List.map_append

/-- A stray stands above the line that opened the parent. -/
theorem IsStray.lt_opener (h : IsStray (lines.map Line.classify) i j)
    (hji : j < i) (hParent : parent? (lines.map Line.classify) i = some f) : j < f.opener := by
  obtain ⟨-, hOther, hContext, -⟩ := h
  have hLength : (frames (lines.map Line.classify) j).length =
      (frames (lines.map Line.classify) i).length := by
    rw [length_frames, length_frames, hContext]
  by_contra hLess
  rcases Nat.lt_or_eq_of_le (Nat.le_of_not_lt hLess) with hLt | hEq
  · have hPrefix := frames_prefix_frames hParent hLt (Nat.le_of_lt hji)
    exact hOther (by rw [parent?, parent?, hPrefix.eq_of_length hLength.symm])
  · -- The line that opens the parent has a shorter context.
    obtain ⟨-, added, hAdded, -, hSplit⟩ := adds_parent hParent
    rw [hEq, ← hContext] at hSplit
    exact hAdded (List.self_eq_append_right.mp hSplit)

/-- An item whose parent stands on a mapping line has no strays. -/
theorem not_isStray_of_mapping (hji : j < i)
    (hParent : parent? (lines.map Line.classify) i = some f)
    (hMapping : (lineAt (lines.map Line.classify) f.opener).isMapping = true) :
    ¬ IsStray (lines.map Line.classify) i j := by
  intro hStray
  obtain ⟨hOpener, added, hNotEmpty, hAdded, hSplit⟩ := adds_parent hParent
  refine hStray.2.2.2 f.opener hOpener (hStray.lt_opener hji hParent) hMapping ?_
  rw [hSplit, path]
  cases hLine : lineAt (lines.map Line.classify) f.opener with
  | mapping line =>
      rw [hLine] at hAdded
      obtain ⟨rest, rfl, hRest⟩ := (List.prefix_cons_iff.mp hAdded).resolve_left hNotEmpty
      rw [List.prefix_nil.mp hRest]
      rfl
  | _ => simp [hLine, Line.isMapping] at hMapping

/-- While no mapping line leads to the path of its parent, an item line raises the count of this
path for all lines below. -/
theorem itemsSince_lt (doc : List Line) {q : Path} {u m : Nat} (hum : u < m)
    (hItem : (lineAt doc u).isItem = true) (hContext : spelled (context doc u) = q)
    (hBetween : ∀ k < m, u < k → (lineAt doc k).isMapping = true → path doc k ≠ q) :
    itemsSince doc u q < itemsSince doc m q := by
  induction m, hum using Nat.le_induction with
  | base =>
      have hNot : (lineAt doc u).isMapping = false := by
        cases hLine : lineAt doc u <;> simp_all [Line.isItem, Line.isMapping]
      simp [itemsSince_succ, hNot, hItem, hContext]
  | succ m hum ih =>
      have hLess := ih fun k hk => hBetween k (Nat.lt_succ_of_lt hk)
      have hPass : ¬ ((lineAt doc m).isMapping = true ∧ path doc m = q) :=
        fun hReset => hBetween m (Nat.lt_succ_self m) hum hReset.1 hReset.2
      rw [itemsSince_succ, if_neg hPass]
      omega

/-- A mapping line leads to its key. -/
theorem exists_path_of_mapping {doc : List Line} {k : Nat}
    (h : (lineAt doc k).isMapping = true) :
    ∃ name, path doc k = (spelled (context doc k)).child (.key name) := by
  rw [path]
  cases hLine : lineAt doc k with
  | mapping line => exact ⟨line.key, rfl⟩
  | _ => simp [hLine, Line.isMapping] at h

/-- The position of an item line comes in front of all else that the line adds. -/
theorem Adds.position_prefix_path {doc : List Line} {m : Nat} {p : Path} (h : Adds doc m p)
    (hNot : ¬ (lineAt doc m).isMapping = true) :
    (spelled (context doc m)).child (.index (position doc m)) <+: p := by
  have hStructural := h.isStructural
  obtain ⟨added, hNotEmpty, hAdded, rfl⟩ := h
  refine (List.prefix_append_right_inj _).mpr ?_
  cases hLine : lineAt doc m with
  | blank => simp [hLine, Line.isStructural] at hStructural
  | unparsed => simp [hLine, Line.isStructural] at hStructural
  | mapping line => simp [hLine, Line.isMapping] at hNot
  | item line =>
      rw [hLine, Line.adds] at hAdded
      cases hKey : line.key <;> rw [hKey] at hAdded
      all_goals
        obtain ⟨rest, rfl, -⟩ := (List.prefix_cons_iff.mp hAdded).resolve_left hNotEmpty
        exact ⟨rest, rfl⟩

/-- Two item lines with the same context path and the same position have a mapping line between them
that leads to this path. -/
theorem exists_mapping_between (doc : List Line) {u m : Nat} (hum : u < m)
    (hItem : (lineAt doc u).isItem = true)
    (hContext : spelled (context doc u) = spelled (context doc m))
    (hPosition : position doc u = position doc m) :
    ∃ k < m, u < k ∧ (lineAt doc k).isMapping = true ∧
      path doc k = spelled (context doc m) := by
  by_contra hNone
  have hLess := itemsSince_lt doc hum hItem hContext fun k hk huk hMapping hPath =>
    hNone ⟨k, hk, huk, hMapping, hPath⟩
  rw [position_eq, position_eq, hContext] at hPosition
  omega

/-- Where an item has a stray, some mapping line above it leads to the path of an earlier line. -/
theorem exists_repeated_of_isStray (h : IsStray (lines.map Line.classify) i j) (hji : j < i) :
    ∃ k < i, (lineAt (lines.map Line.classify) k).isMapping = true ∧
      ∃ w < k, (lineAt (lines.map Line.classify) w).isStructural = true ∧
        path (lines.map Line.classify) w = path (lines.map Line.classify) k := by
  cases hParent : parent? (lines.map Line.classify) i with
  | none =>
      -- Items without a parent are counted together.
      obtain ⟨-, hOther, hContext, -⟩ := h
      rw [spelled_of_parent?_eq_none hParent, ← map_ancestor_frames, spelled,
        List.map_eq_nil_iff, List.map_eq_nil_iff] at hContext
      exact absurd (by rw [parent?, hContext, hParent]; rfl) hOther
  | some f =>
      -- The opener `f.opener` of the parent is an item line, and its position stands in the path of
      -- the stray as well.  There another item line `u` has put it, with the same context path.
      obtain ⟨hOpener, hAdds⟩ := adds_parent hParent
      have hBelow := h.lt_opener hji hParent
      have hPosition := hAdds.position_prefix_path fun hMapping =>
        not_isStray_of_mapping hji hParent hMapping h
      rw [← h.2.2.1] at hPosition
      obtain ⟨u, huj, hAddsPosition⟩ := exists_adding_above (by simp [Path.child]) hPosition
      obtain ⟨item, hLine, hSame, hContext, -⟩ := hAddsPosition.exists_item
      -- So the count of that path was forgotten in between, at a line `k` whose key is a repeated
      -- one: the line `w` has put it into the context of `u`.
      obtain ⟨k, hk, huk, hMapping, hPath⟩ := exists_mapping_between _
        (Nat.lt_trans huj hBelow) (by rw [hLine]; rfl) hContext hSame
      obtain ⟨name, hName⟩ := exists_path_of_mapping hMapping
      have hFront : (spelled (context (lines.map Line.classify) k)).child (.key name) <+:
          spelled (context (lines.map Line.classify) u) := by
        rw [hContext, ← hPath, hName]
      obtain ⟨w, hwu, hAddsKey⟩ := exists_adding_above (by simp [Path.child]) hFront
      refine ⟨k, Nat.lt_trans hk hOpener, hMapping, w, Nat.lt_trans hwu huk,
        hAddsKey.isStructural, ?_⟩
      rw [hName]
      exact hAddsKey.path_eq

end Strays

/-- The position of an item is one more than its elder siblings and its strays, so it counts the
siblings exactly when there are no strays.  There are none when the parent stands on a mapping line,
and none when no mapping line above leads to the path of an earlier line. -/
theorem position_counts_siblings {lines : List String} {entry : PathEntry}
    (hEntry : entry ∈ scanPaths lines) (hItem : entry.isItem = true) :
    let doc := lines.map Line.classify
    let i := entry.line - 1
    entry.position = some (1 + siblings doc i + strays doc i) ∧
      (entry.position = some (1 + siblings doc i) ↔ ∀ j < i, ¬ IsStray doc i j) ∧
      (∀ parent, parent? doc i = some parent → (lineAt doc parent.opener).isMapping = true →
        entry.position = some (1 + siblings doc i)) ∧
      ((∀ k < i, (lineAt doc k).isMapping = true →
          ∀ w < k, (lineAt doc w).isStructural = true → path doc w ≠ path doc k) →
        entry.position = some (1 + siblings doc i)) := by
  intro doc i
  obtain ⟨place, -, -, rfl⟩ := mem_scanPaths_iff.mp hEntry
  have hPosition : (entryAt lines place).position = some (1 + siblings doc i + strays doc i) := by
    show (if (lineAt doc place).isItem = true then some (position doc place) else none) = _
    rw [if_pos (show (lineAt doc place).isItem = true from hItem)]
    exact congrArg some (position_eq_siblings_add_strays lines place)
  have hIff : (entryAt lines place).position = some (1 + siblings doc i) ↔
      ∀ j < i, ¬ IsStray doc i j := by
    rw [hPosition, ← strays_eq_zero_iff, Option.some.injEq, Nat.add_eq_left]
  refine ⟨hPosition, hIff, ?_, ?_⟩
  · intro parent hParent hMapping
    exact hIff.mpr fun j hj => not_isStray_of_mapping hj hParent hMapping
  · intro hOnce
    refine hIff.mpr fun j hj hStray => ?_
    obtain ⟨k, hk, hMapping, w, hwk, hStructural, hSame⟩ := exists_repeated_of_isStray hStray hj
    exact hOnce k hk hMapping w hwk hStructural hSame

/-- A key is repeated whose first item holds an inline key with items of its own.  The items of the
repeated key are numbered from one again.  The only item below the inline key is numbered two, for
it goes on from the one below the inline key before. -/
theorem position_counts_siblings_repeated :
    let lines := ["items:", "  - sub:", "      - x", "items:", "  - sub:", "      - y"]
    let doc := lines.map Line.classify
    let sub : PathEntry :=
      { line := 5, key := "sub", text := "- sub:", isItem := true, position := some 1
        path := [.key "items", .index 1, .key "sub"] }
    let last : PathEntry :=
      { line := 6, key := "[2]", text := "- y", isItem := true, position := some 2
        path := [.key "items", .index 1, .key "sub", .index 2] }
    sub ∈ scanPaths lines ∧ last ∈ scanPaths lines ∧
      sub.position = some (1 + siblings doc 4) ∧ siblings doc 5 = 0 ∧ strays doc 5 = 1 ∧
        last.position ≠ some (1 + siblings doc 5) := by
  intro lines doc sub last
  have hSub : sub ∈ scanPaths lines := by decide
  have hLast : last ∈ scanPaths lines := by decide
  have hParent : parent? doc 4 = some ⟨3, ⟨.key "items", 0⟩⟩ := by
    dsimp only [doc, lines]
    cbv
  have hSiblings : siblings doc 5 = 0 := by
    dsimp only [doc, lines]
    cbv
  obtain ⟨-, -, hMapping, -⟩ := position_counts_siblings hSub rfl
  obtain ⟨hPosition, -⟩ := position_counts_siblings hLast rfl
  have hCount : 2 = 1 + siblings doc 5 + strays doc 5 := Option.some.inj hPosition
  refine ⟨hSub, hLast, hMapping _ hParent rfl, hSiblings, by omega, ?_⟩
  rw [hSiblings]
  decide

end YamlIndex.Document
