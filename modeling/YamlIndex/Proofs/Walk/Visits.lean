import YamlIndex.Proofs.Walk.Reach

/-!
# What is visited

A walk visits a place when the names that lead to it say so, and says of it what it finds there: a
file, a directory, or a directory that cannot be entered.  One step of the walk asks whether a place
is reached and goes on to the entries of a directory that is entered; the rest is an induction on
the tree.

## Main results

* `mem_visits`: what is visited at a place and below it.
* `mem_walk`: what is visited on a volume.
-/

namespace YamlIndex.Volume

variable {volume : Volume} {options : Walk.Options} {root : Location}

/-- What a walk from a root says of a place that it comes by. -/
def visitAt (volume : Volume) (options : Walk.Options) (root : Location) (names : List String)
    (tree : FileTree) : Walk.Visit :=
  (Walk.lookAt options volume.isLocked (root ++ names) names.length tree).1

theorem descends_iff (depth : Nat) :
    Walk.descends options depth = true ↔ DescendsFrom options depth := by
  rw [Walk.descends, DescendsFrom]
  cases options.maxDepth with
  | none => simp
  | some limit => simp

theorem find?_append {location : Location} {tree : FileTree}
    (hFind : volume.find? location = some tree) (names : List String) :
    volume.find? (location ++ names) = tree.find? names := by
  rw [find?] at hFind
  rw [find?, FileTree.find?_append, hFind, Option.bind_some]

theorem find?_of_mem {names : List String} {tree : FileTree}
    (hFind : volume.find? (root ++ names) = some tree) (hTree : tree.IsWellFormed)
    {entry : String × FileTree} (hEntry : entry ∈ tree.entries) :
    volume.find? (root ++ (names ++ [entry.1])) = some entry.2 := by
  rw [find?, ← List.append_assoc, FileTree.find?_concat hFind]
  exact hTree.lookup_eq_some_iff.mpr hEntry

theorem mem_inOrder {entries : List (String × FileTree)} {entry : String × FileTree} :
    entry ∈ Walk.inOrder entries ↔ entry ∈ entries :=
  List.mem_mergeSort

/-- What is below a place is visited when the place is a directory that is entered. -/
theorem mem_inner_iff {names : List String} {scopes : List Walk.Scope} {tree : FileTree}
    (hFind : volume.find? (root ++ names) = some tree) {visit : Walk.Visit} :
    visit ∈ (Walk.lookAt options volume.isLocked (root ++ names) names.length tree).2.toList.flatMap
        (Walk.visitsIn options volume.isLocked scopes) ↔
      volume.Opens options (root ++ names) ∧ DescendsFrom options names.length ∧
        ∃ entry ∈ tree.entries, visit ∈ Walk.visits options volume.isLocked
          (volume.scopeAt options (root ++ names) :: scopes) (root ++ (names ++ [entry.1]))
          (names ++ [entry.1]).length entry.2 := by
  simp only [List.mem_flatMap, Option.mem_toList, Walk.lookAt_inner, descends_iff]
  constructor
  · rintro ⟨inner, ⟨entries, rfl, hDescends, hEnter⟩, hVisit⟩
    obtain ⟨scope, hScope, rfl⟩ := Walk.enter_eq_ok hEnter
    obtain ⟨hOpens, rfl⟩ := (enter_eq_ok_iff hFind).mp hScope
    obtain ⟨entry, hEntry, hVisit⟩ := List.mem_flatMap.mp hVisit
    refine ⟨hOpens, hDescends, entry, mem_inOrder.mp hEntry, ?_⟩
    rw [← List.append_assoc, List.length_append, List.length_singleton]
    exact hVisit
  · rintro ⟨hOpens, hDescends, entry, hEntry, hVisit⟩
    cases tree with
    | file contents => exact absurd hEntry (by simp [FileTree.entries])
    | directory entries =>
        have hEnter : Walk.Frame.enter options volume.isLocked (root ++ names) (names.length + 1)
            entries = .ok ⟨root ++ names, names.length + 1,
              volume.scopeAt options (root ++ names), Walk.inOrder entries⟩ := by
          have hScope := enter_of_opens hFind hOpens
          rw [FileTree.entries] at hScope
          rw [Walk.Frame.enter, hScope]
          rfl
        refine ⟨_, ⟨entries, rfl, hDescends, hEnter⟩, ?_⟩
        refine List.mem_flatMap.mpr ⟨entry, mem_inOrder.mpr hEntry, ?_⟩
        rw [← List.append_assoc, List.length_append, List.length_singleton] at hVisit
        exact hVisit

/-- One step down: a place is visited when it is reached, and then so is what is below it when it is
entered. -/
theorem mem_visits_step {above : List String} {name : String} {scopes : List Walk.Scope}
    {tree : FileTree} (hFind : volume.find? (root ++ (above ++ [name])) = some tree)
    (hScopes : volume.HasScopes options root above scopes)
    (hAbove : volume.Enters options root above) {visit : Walk.Visit} :
    visit ∈ Walk.visits options volume.isLocked scopes (root ++ (above ++ [name]))
        (above ++ [name]).length tree ↔
      volume.Reaches options root (above ++ [name]) tree.isDirectory ∧
        (visit = volume.visitAt options root (above ++ [name]) tree ∨
          volume.Opens options (root ++ (above ++ [name])) ∧
            DescendsFrom options (above ++ [name]).length ∧
            ∃ entry ∈ tree.entries, visit ∈ Walk.visits options volume.isLocked
              (volume.scopeAt options (root ++ (above ++ [name])) :: scopes)
              (root ++ (above ++ [name] ++ [entry.1])) (above ++ [name] ++ [entry.1]).length
              entry.2) := by
  have hReaches : volume.Reaches options root (above ++ [name]) tree.isDirectory ↔
      Walk.admits options scopes (root ++ (above ++ [name])) tree.isDirectory = true := by
    rw [reaches_concat, admits_iff hScopes]
    exact and_iff_right hAbove
  rw [hReaches, ← mem_inner_iff hFind, Walk.visits_eq]
  by_cases hAdmits : Walk.admits options scopes (root ++ (above ++ [name])) tree.isDirectory = true
  · rw [if_pos hAdmits, List.mem_cons, visitAt]
    exact (and_iff_right hAdmits).symm
  · rw [if_neg hAdmits]
    simp [hAdmits]

theorem mem_visits {tree : FileTree} (hTree : tree.IsWellFormed) {above : List String}
    {name : String} {scopes : List Walk.Scope}
    (hFind : volume.find? (root ++ (above ++ [name])) = some tree)
    (hScopes : volume.HasScopes options root above scopes)
    (hAbove : volume.Enters options root above) {visit : Walk.Visit} :
    visit ∈ Walk.visits options volume.isLocked scopes (root ++ (above ++ [name]))
        (above ++ [name]).length tree ↔
      ∃ rest below, tree.find? rest = some below ∧
        volume.Reaches options root (above ++ [name] ++ rest) below.isDirectory ∧
          visit = volume.visitAt options root (above ++ [name] ++ rest) below := by
  induction hTree using FileTree.IsWellFormed.induction generalizing above name scopes with
  | step tree hTree ih =>
      rw [mem_visits_step hFind hScopes hAbove]
      constructor
      · rintro ⟨hReaches, rfl | ⟨hOpens, hDescends, entry, hEntry, hVisit⟩⟩
        · exact ⟨[], tree, rfl, by rwa [List.append_nil], by rw [List.append_nil]⟩
        · have hDirectory : tree.isDirectory = true := FileTree.isDirectory_of_mem hEntry
          have hEnters : volume.Enters options root (above ++ [name]) :=
            ⟨hDirectory ▸ hReaches, hOpens, hDescends⟩
          obtain ⟨rest, below, hBelow, hRest, rfl⟩ := (ih entry hEntry
            (find?_of_mem hFind hTree hEntry) (hScopes.concat name) hEnters).mp hVisit
          refine ⟨entry.1 :: rest, below, ?_, ?_, ?_⟩
          · rw [FileTree.find?_cons, hTree.lookup_eq_some_iff.mpr hEntry]
            exact hBelow
          · rwa [List.append_assoc _ [entry.1] rest] at hRest
          · rw [List.append_assoc _ [entry.1] rest]
            rfl
      · rintro ⟨rest, below, hBelow, hReaches, rfl⟩
        cases rest with
        | nil =>
            obtain rfl : tree = below := Option.some.inj hBelow
            rw [List.append_nil] at hReaches
            exact ⟨hReaches, .inl (by rw [List.append_nil])⟩
        | cons first rest =>
            have hEnters := hReaches.front
            rw [FileTree.find?_cons, Option.bind_eq_some_iff] at hBelow
            obtain ⟨child, hChild, hBelow⟩ := hBelow
            have hEntry := hTree.lookup_eq_some_iff.mp hChild
            have hDirectory : tree.isDirectory = true := FileTree.isDirectory_of_mem hEntry
            refine ⟨hDirectory.symm ▸ hEnters.reaches,
              .inr ⟨hEnters.opens, hEnters.descends, _, hEntry, ?_⟩⟩
            rw [ih _ hEntry (find?_of_mem hFind hTree hEntry) (hScopes.concat name) hEnters]
            refine ⟨rest, below, hBelow, ?_, ?_⟩
            · rwa [List.append_assoc _ [first] rest]
            · rw [List.append_assoc _ [first] rest]
              rfl

/-- A walk from a directory that opens visits what is below its entries. -/
theorem walk_of_opens {tree : FileTree} (hFind : volume.find? root = some tree)
    (hOpens : volume.Opens options root) :
    volume.walk options root =
      .ok ((Walk.inOrder tree.entries).flatMap fun entry =>
        Walk.visits options volume.isLocked [volume.scopeAt options root] (root ++ [entry.1]) 1
          entry.2) :=
  walk_eq hFind (enter_of_opens hFind hOpens)

/-- A walk has started in a directory that opens. -/
theorem opens_of_walk {visits : List Walk.Visit} (hWalk : volume.walk options root = .ok visits) :
    ∃ tree, volume.find? root = some tree ∧ volume.Opens options root := by
  cases hFind : volume.find? root with
  | none => simp [walk, hFind] at hWalk
  | some tree =>
      by_cases hOpens : volume.Opens options root
      · exact ⟨tree, rfl, hOpens⟩
      · obtain ⟨error, hEnter⟩ := enter_of_not_opens hFind hOpens
        simp [walk, hFind, Walk.Frame.enter, hEnter, Except.map] at hWalk

/-- A walk visits the places that its root reaches, and says of each what it finds there. -/
theorem mem_walk {tree : FileTree} (hTree : volume.tree.IsWellFormed)
    (hFind : volume.find? root = some tree) (hOpens : volume.Opens options root)
    (hDepth : options.maxDepth ≠ some 0) {visits : List Walk.Visit}
    (hWalk : volume.walk options root = .ok visits) {visit : Walk.Visit} :
    visit ∈ visits ↔
      ∃ names below, names ≠ [] ∧ volume.find? (root ++ names) = some below ∧
        volume.Reaches options root names below.isDirectory ∧
          visit = volume.visitAt options root names below := by
  have hEnters : volume.Enters options root [] := by
    refine ⟨reaches_nil true, by rwa [List.append_nil], fun limit hLimit => ?_⟩
    refine Nat.pos_of_ne_zero fun hZero => hDepth ?_
    rw [hLimit, hZero]
  have hRoot : volume.find? (root ++ []) = some tree := by rwa [List.append_nil]
  have hBelow : tree.IsWellFormed := (hTree.of_find? hFind).1
  have hEntries {entry : String × FileTree} (hEntry : entry ∈ tree.entries) :=
    @mem_visits volume options root entry.2 (hBelow.of_mem hEntry) [] entry.1 _
      (find?_of_mem hRoot hBelow hEntry) hasScopes_nil hEnters visit
  rw [walk_of_opens hFind hOpens, Except.ok.injEq] at hWalk
  rw [← hWalk, List.mem_flatMap]
  constructor
  · rintro ⟨entry, hEntry, hVisit⟩
    have hEntry := mem_inOrder.mp hEntry
    obtain ⟨rest, below, hFound, hReaches, rfl⟩ := (hEntries hEntry).mp hVisit
    refine ⟨entry.1 :: rest, below, by simp, ?_, hReaches, rfl⟩
    rw [find?_append hFind, FileTree.find?_cons,
      hBelow.lookup_eq_some_iff.mpr hEntry]
    exact hFound
  · rintro ⟨names, below, hNames, hFound, hReaches, rfl⟩
    obtain ⟨first, rest, rfl⟩ := List.exists_cons_of_ne_nil hNames
    rw [find?_append hFind, FileTree.find?_cons, Option.bind_eq_some_iff] at hFound
    obtain ⟨child, hChild, hFound⟩ := hFound
    have hEntry := hBelow.lookup_eq_some_iff.mp hChild
    exact ⟨_, mem_inOrder.mpr hEntry, (hEntries hEntry).mpr ⟨rest, below, hFound, hReaches, rfl⟩⟩

end YamlIndex.Volume
