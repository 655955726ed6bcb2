import YamlIndex.Proofs.Context
import YamlIndex.Proofs.Steps

/-!
# Every ancestor has a line of its own

The path of a line is a chain of keys and positions, and each of them was put there by some line: a
key by the mapping line or the inline key that it stands on, a position by its item line.  What
stands in front of it has not changed since, because the open ancestors are a stack.  So a path has
no part without a line, and the line that adds the last segment of a path is the first one that is
found under this path.

## Main results

* `isStack_opened`: the open ancestors are a stack.
* `exists_adding`: each front part of the path of a line is the context of a line, itself or one
  above it, together with what this line adds.
* `prefixes_are_introduced`: the same for the entries of an index and for the first line found.
-/

namespace YamlIndex

/-- What closes an ancestor closes all that it encloses. -/
theorem Ancestor.Encloses.survives {outer inner : Ancestor} (h : outer.Encloses inner)
    {line : Line} (hInner : inner.survives line = true) : outer.survives line = true := by
  cases line with
  | blank => rfl
  | unparsed => rfl
  | mapping line =>
      simp only [Ancestor.survives, decide_eq_true_eq] at hInner ⊢
      rcases h with hLt | ⟨hEq, -, -⟩ <;> omega
  | item line =>
      simp only [Ancestor.survives, Bool.or_eq_true, decide_eq_true_eq, Bool.and_eq_true,
        beq_iff_eq, Bool.not_eq_true'] at hInner ⊢
      rcases h with hLt | ⟨hEq, -, hIndex⟩
      · rcases hInner with hLess | ⟨hSame, -⟩ <;> exact .inl (by omega)
      · rcases hInner with hLess | ⟨-, hKey⟩
        · exact .inl (by omega)
        · exact absurd (hIndex.symm.trans hKey) (by simp)

namespace Document

/-! ## The open ancestors as a stack -/

/-- The open ancestors enclose each other, from the outside in. -/
theorem encloses_stillOpen (lines : List String) (i : Nat) :
    (stillOpen (lines.map Line.classify) i).Pairwise Ancestor.Encloses := by
  have hWithin : ∀ i ≤ lines.length,
      (stillOpen (lines.map Line.classify) i).Pairwise Ancestor.Encloses := by
    intro i hi
    have h := describes_take lines i hi
    rw [← h.ancestors]
    exact List.pairwise_reverse.mpr h.nested
  rcases Nat.le_total i lines.length with hi | hi
  · exact hWithin i hi
  · -- Behind the last line nothing is opened or closed any more.
    induction i, hi using Nat.le_induction with
    | base => exact hWithin lines.length (Nat.le_refl _)
    | succ i hi ih =>
        have hBlank : lineAt (lines.map Line.classify) i = .blank := by
          rw [lineAt, List.getD_eq_getElem?_getD, List.getElem?_eq_none (by simpa using hi)]
          rfl
        have hSame : stillOpen (lines.map Line.classify) (i + 1) =
            stillOpen (lines.map Line.classify) i := by
          refine survivors_succ_of_keeps ?_ ?_
          · rw [opened, hBlank]
            rfl
          · intro a
            rw [hBlank]
            rfl
        rw [hSame]
        exact ih

theorem isStack_opened (lines : List String) :
    IsStack (opened (lines.map Line.classify))
      fun a k => a.survives (lineAt (lines.map Line.classify) k) :=
  fun i => (encloses_stillOpen lines i).imp fun hEncloses hInner => hEncloses.survives hInner

/-! ## The line that adds a segment -/

/-- What a line adds ends in its key; an item line with a key adds its position before that. -/
theorem adds_cases {line : Line} {n : Nat} {added : Path} (hNotEmpty : added ≠ [])
    (h : added <+: line.adds n) :
    (∃ before name, added = Path.child before (.key name) ∧ line.adds n = added) ∨
      ∃ item, line = .item item ∧ added = [.index n] ∧
        (line.adds n = added ∨
          ∃ key, item.key = some key ∧ line.adds n = added.child (.key key)) := by
  cases line with
  | blank => exact absurd (List.prefix_nil.mp h) hNotEmpty
  | unparsed => exact absurd (List.prefix_nil.mp h) hNotEmpty
  | mapping line =>
      obtain ⟨rest, rfl, hRest⟩ := (List.prefix_cons_iff.mp h).resolve_left hNotEmpty
      rw [List.prefix_nil.mp hRest]
      exact .inl ⟨[], line.key, rfl, rfl⟩
  | item line =>
      rw [Line.adds] at h ⊢
      cases hKey : line.key with
      | none =>
          rw [hKey] at h
          obtain ⟨rest, rfl, hRest⟩ := (List.prefix_cons_iff.mp h).resolve_left hNotEmpty
          rw [List.prefix_nil.mp hRest]
          exact .inr ⟨line, rfl, rfl, .inl rfl⟩
      | some key =>
          rw [hKey] at h
          obtain ⟨rest, rfl, hRest⟩ := (List.prefix_cons_iff.mp h).resolve_left hNotEmpty
          rcases List.prefix_cons_iff.mp hRest with rfl | ⟨behind, rfl, hBehind⟩
          · exact .inr ⟨line, rfl, rfl, .inr ⟨key, hKey, rfl⟩⟩
          · rw [List.prefix_nil.mp hBehind]
            exact .inl ⟨[.index n], key, rfl, rfl⟩

/-- Whether the last segment of a path is one that a line adds to its context. -/
def Adds (doc : List Line) (i : Nat) (p : Path) : Prop :=
  ∃ added, added ≠ [] ∧ added <+: (lineAt doc i).adds (position doc i) ∧
    p = spelled (context doc i) ++ added

section Adds

variable {doc : List Line} {i : Nat} {p : Path}

theorem Adds.prefix_path (h : Adds doc i p) : p <+: path doc i := by
  obtain ⟨added, -, hAdded, rfl⟩ := h
  rw [path]
  exact (List.prefix_append_right_inj _).mpr hAdded

theorem Adds.isStructural (h : Adds doc i p) : (lineAt doc i).isStructural = true := by
  obtain ⟨added, hNotEmpty, hAdded, -⟩ := h
  cases hLine : lineAt doc i with
  | blank =>
      rw [hLine] at hAdded
      exact absurd (List.prefix_nil.mp hAdded) hNotEmpty
  | unparsed =>
      rw [hLine] at hAdded
      exact absurd (List.prefix_nil.mp hAdded) hNotEmpty
  | mapping line => rfl
  | item line => rfl

/-- A key is added as the last segment of the path of its line. -/
theorem Adds.path_eq {parent : Path} {name : String} (h : Adds doc i (parent.child (.key name))) :
    path doc i = parent.child (.key name) := by
  obtain ⟨added, hNotEmpty, hAdded, hPath⟩ := h
  rcases adds_cases hNotEmpty hAdded with ⟨-, -, -, hAll⟩ | ⟨-, -, rfl, -⟩
  · rw [path, hAll, hPath]
  · exact absurd (List.append_inj' hPath rfl).2 (by simp)

/-- A position is added by an item line that has it, in front of the key of this line if there is
one. -/
theorem Adds.exists_item {parent : Path} {n : Nat} (h : Adds doc i (parent.child (.index n))) :
    ∃ item, lineAt doc i = .item item ∧ position doc i = n ∧ spelled (context doc i) = parent ∧
      (path doc i = parent.child (.index n) ∨ ∃ key, item.key = some key ∧
        path doc i = (parent.child (.index n)).child (.key key)) := by
  obtain ⟨added, hNotEmpty, hAdded, hPath⟩ := h
  rcases adds_cases hNotEmpty hAdded with ⟨before, name, rfl, -⟩ | ⟨item, hLine, rfl, hAll⟩
  · rw [Path.child, Path.child, ← List.append_assoc] at hPath
    exact absurd (List.append_inj' hPath rfl).2 (by simp)
  · obtain ⟨rfl, hIndex⟩ := List.append_inj' hPath rfl
    obtain rfl : n = position doc i := by simpa using hIndex
    refine ⟨item, hLine, rfl, rfl, ?_⟩
    rw [path]
    rcases hAll with hAlone | ⟨key, hKey, hBoth⟩
    · exact .inl (by rw [hAlone]; rfl)
    · refine .inr ⟨key, hKey, ?_⟩
      rw [hBoth, Path.child, Path.child, Path.child, List.append_assoc]

end Adds

/-- What a line opens spells what it adds, as far as it opens anything. -/
theorem spelled_opened_prefix_adds (doc : List Line) (i : Nat) :
    spelled (opened doc i) <+: (lineAt doc i).adds (position doc i) := by
  rw [opened]
  cases lineAt doc i with
  | blank => exact List.nil_prefix
  | unparsed => exact List.nil_prefix
  | mapping line => exact List.prefix_refl _
  | item line =>
      rw [Line.opens, Line.adds]
      cases line.key with
      | none => exact List.nil_prefix
      | some key => exact List.prefix_refl _

/-- A front part of the context of a line has been added to by a line above it. -/
theorem exists_adding_above {lines : List String} {i : Nat} {p : Path} (hNotEmpty : p ≠ [])
    (h : p <+: spelled (context (lines.map Line.classify) i)) :
    ∃ j < i, Adds (lines.map Line.classify) j p := by
  obtain ⟨chain, hChain, rfl⟩ := List.prefix_map_iff.mp h
  obtain ⟨below, a, rfl⟩ := (List.eq_nil_or_concat' chain).resolve_left fun hNil =>
    hNotEmpty (by rw [hNil]; rfl)
  rw [context_eq_kept] at hChain
  obtain ⟨j, hj, before, hOpened, rfl⟩ := (isStack_opened lines).exists_origin
    (hChain.trans ((isStack_opened lines).kept_prefix_survivors i))
  refine ⟨j, hj, spelled (before ++ [a]), by simp [spelled], ?_, ?_⟩
  · exact (hOpened.map Ancestor.segment).trans (spelled_opened_prefix_adds _ j)
  · rw [context_eq_kept, spelled, spelled, ← List.map_append, List.append_assoc]

/-- A front part of the path of a line has been added to by this line or by one above it. -/
theorem exists_adding {lines : List String} {i : Nat} {p : Path} (hNotEmpty : p ≠ [])
    (h : p <+: path (lines.map Line.classify) i) :
    ∃ j ≤ i, Adds (lines.map Line.classify) j p := by
  rw [path] at h
  rcases prefix_append_cases h with hContext | ⟨added, hAdded, hOwn, rfl⟩
  · obtain ⟨j, hj, hAdds⟩ := exists_adding_above hNotEmpty hContext
    exact ⟨j, Nat.le_of_lt hj, hAdds⟩
  · exact ⟨i, Nat.le_refl i, added, hAdded, hOwn, rfl⟩

/-! ## Entries and lines -/

/-- The entries of an index are those of the structural lines. -/
theorem mem_scanPaths_iff {lines : List String} {entry : PathEntry} :
    entry ∈ scanPaths lines ↔ ∃ i < lines.length,
      (lineAt (lines.map Line.classify) i).isStructural = true ∧ entry = entryAt lines i := by
  rw [scanPaths, Scan.steps, (describes_run lines).steps, List.map_map, List.mem_map]
  constructor
  · rintro ⟨i, hi, rfl⟩
    obtain ⟨hRange, hStructural⟩ := List.mem_filter.mp hi
    exact ⟨i, List.mem_range.mp hRange, hStructural, entry_stepAt hStructural⟩
  · rintro ⟨i, hi, hStructural, rfl⟩
    exact ⟨i, List.mem_filter.mpr ⟨List.mem_range.mpr hi, hStructural⟩, entry_stepAt hStructural⟩

theorem head?_of_limited {α : Type} {limit : Option Nat} {xs : List α} {x : α}
    (h : (limited limit xs).head? = some x) : xs.head? = some x := by
  cases limit with
  | none => exact h
  | some n =>
      rw [limited, List.head?_take] at h
      split at h
      · exact absurd h (by simp)
      · exact h

/-- What is found first under a path is the first structural line whose path begins with it. -/
theorem exists_of_head?_findPath {query : Path} {lines : List String} {limit : Option Nat}
    {found : PathEntry} (h : (findPath query lines limit).head? = some found) :
    query ≠ [] ∧ ∃ i < lines.length, found.line = i + 1 ∧
      (lineAt (lines.map Line.classify) i).isStructural = true ∧
      query <+: path (lines.map Line.classify) i ∧
        ∀ j, (lineAt (lines.map Line.classify) j).isStructural = true →
          query <+: path (lines.map Line.classify) j → i ≤ j := by
  rw [findPath] at h
  split at h
  · exact absurd h (by simp)
  · rename_i hNotEmpty
    rw [List.head?_map, Option.map_eq_some_iff] at h
    obtain ⟨step, hStep, rfl⟩ := h
    have hFirst := head?_of_limited hStep
    rw [Scan.steps, (describes_run lines).steps, structuralBefore, List.filter_map,
      List.filter_filter, List.head?_map, List.head?_filter, Option.map_eq_some_iff] at hFirst
    obtain ⟨i, hFind, rfl⟩ := hFirst
    obtain ⟨hFits, hRange, hNone⟩ := List.find?_range_eq_some.mp hFind
    simp only [Function.comp_apply, Bool.and_eq_true] at hFits
    refine ⟨by simpa using hNotEmpty, i, List.mem_range.mp hRange, rfl, hFits.2,
      Path.startsWith_iff.mp hFits.1, ?_⟩
    intro j hStructural hPath
    by_contra hLess
    have hNot := hNone j (Nat.lt_of_not_le hLess)
    simp [hStructural, stepAt, Path.startsWith_iff.mpr hPath] at hNot

/-- Whether an entry stands on the line that introduces a path.  For a path that ends in a key its
own path is that one.  For a path that ends in a position it stands on an item line with this
position, and its own path is that one, or goes on with the key behind the marker. -/
def Introduces (doc : List Line) (entry : PathEntry) (p : Path) : Prop :=
  match p.getLast? with
  | none => False
  | some (.key _) => entry.path = p
  | some (.index n) =>
    ∃ item, lineAt doc (entry.line - 1) = .item item ∧ entry.position = some n ∧
      (entry.path = p ∨ ∃ key, item.key = some key ∧ entry.path = p.child (.key key))

theorem introduces_of_adds {lines : List String} {i : Nat} {p : Path} (hNotEmpty : p ≠ [])
    (h : Adds (lines.map Line.classify) i p) :
    Introduces (lines.map Line.classify) (entryAt lines i) p := by
  obtain ⟨parent, segment, rfl⟩ := (List.eq_nil_or_concat' p).resolve_left hNotEmpty
  rw [Introduces, List.getLast?_concat]
  cases segment with
  | key name => exact h.path_eq
  | index n =>
      obtain ⟨item, hLine, hPosition, -, hPath⟩ := h.exists_item
      exact ⟨item, hLine, by simp [entryAt, hLine, Line.isItem, hPosition], hPath⟩

end Document

/-- Each front part of the path of an entry is introduced by an entry no further down, and by one
above if it ends in a key and is not the whole path.  What is found first under a query is the line
that introduces the query. -/
theorem prefixes_are_introduced (lines : List String) :
    (∀ entry ∈ scanPaths lines, ∀ p, p ≠ [] → p <+: entry.path →
        ∃ first ∈ scanPaths lines, Document.Introduces (lines.map Line.classify) first p ∧
          first.line ≤ entry.line ∧
            ((∃ name, p.getLast? = some (.key name)) → p ≠ entry.path →
              first.line < entry.line)) ∧
      ∀ query limit found, (findPath query lines limit).head? = some found →
        ∃ entry ∈ scanPaths lines, entry.line = found.line ∧
          Document.Introduces (lines.map Line.classify) entry query := by
  constructor
  · intro entry hEntry p hNotEmpty hPrefix
    obtain ⟨i, hi, -, rfl⟩ := Document.mem_scanPaths_iff.mp hEntry
    obtain ⟨j, hj, hAdds⟩ := Document.exists_adding hNotEmpty hPrefix
    have hIntroduces := Document.introduces_of_adds hNotEmpty hAdds
    refine ⟨Document.entryAt lines j, ?_, hIntroduces, Nat.succ_le_succ hj, ?_⟩
    · exact Document.mem_scanPaths_iff.mpr ⟨j, Nat.lt_of_le_of_lt hj hi, hAdds.isStructural, rfl⟩
    · rintro ⟨name, hKey⟩ hProper
      rw [Document.Introduces, hKey] at hIntroduces
      -- The line of the entry introduces no other path that ends in a key than its own.
      have hOther : j ≠ i := by
        rintro rfl
        exact hProper hIntroduces.symm
      exact Nat.succ_lt_succ (Nat.lt_of_le_of_ne hj hOther)
  · intro query limit found hFound
    obtain ⟨hNotEmpty, i, hi, hLine, hStructural, hQuery, hFirst⟩ :=
      Document.exists_of_head?_findPath hFound
    obtain ⟨j, hj, hAdds⟩ := Document.exists_adding hNotEmpty hQuery
    -- The line that adds to the query is found too, so it is the one that is found first.
    obtain rfl : i = j := Nat.le_antisymm (hFirst j hAdds.isStructural hAdds.prefix_path) hj
    exact ⟨Document.entryAt lines i, Document.mem_scanPaths_iff.mpr ⟨i, hi, hStructural, rfl⟩,
      hLine.symm, Document.introduces_of_adds hNotEmpty hAdds⟩

/-- The ports of a container have a line of their own above each port.  The container has none, and
is found first on the item line that holds its name. -/
theorem prefixes_are_introduced_container :
    let lines := ["containers:", "- name: nginx", "  ports:", "  - containerPort: 80"]
    let container : Path := [.key "containers", .index 1]
    (∃ first ∈ scanPaths lines, first.line < 4 ∧ first.path = container.child (.key "ports")) ∧
      (findPath container lines (some 1)).head?.map PathEntry.line = some 2 ∧
        ∃ entry ∈ scanPaths lines, entry.line = 2 ∧ entry.position = some 1 ∧
          ∃ key, entry.path = container.child (.key key) := by
  intro lines container
  obtain ⟨hPrefixes, hFind⟩ := prefixes_are_introduced lines
  let port : PathEntry :=
    { line := 4, key := "containerPort", text := "- containerPort: 80"
      path := [.key "containers", .index 1, .key "ports", .index 1, .key "containerPort"]
      isItem := true, position := some 1 }
  let found : PathEntry :=
    { line := 2, key := "name", text := "- name: nginx", path := container
      isItem := true, position := some 1 }
  have hNone : ∀ entry ∈ scanPaths lines, entry.path ≠ container := by decide
  refine ⟨?_, by decide, ?_⟩
  · obtain ⟨first, hFirst, hPath, -, hAbove⟩ := hPrefixes port (by decide)
      (container.child (.key "ports")) (by decide) (by decide)
    exact ⟨first, hFirst, hAbove ⟨"ports", rfl⟩ (by decide), hPath⟩
  · obtain ⟨entry, hEntry, hLine, item, -, hPosition, hPath⟩ :=
      hFind container (some 1) found (by decide)
    obtain ⟨key, -, hKey⟩ := hPath.resolve_left (hNone entry hEntry)
    exact ⟨entry, hEntry, hLine, hPosition, key, hKey⟩

end YamlIndex
