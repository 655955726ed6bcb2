import YamlIndex.Proofs.Walk.Order

/-!
# What a listing holds

A listing has the files that are reached and wanted, and the directories that are reached and not
opened, each once and in pre-order.

## Main results

* `mem_listFiles_files`, `mem_listFiles_unreadable`: what a listing holds.
* `pairwise_listFiles`: a listing is in pre-order.
* `exists_listFiles`: both, with the listing there from any root that opens.
-/

namespace YamlIndex

namespace Walk

/-- The location of a visit, if it is one of a file that is wanted. -/
def Visit.file? (wanted : Location → Bool) : Visit → Option Location
  | entry location _ false => if wanted location then some location else none
  | _ => none

/-- The location of a visit, if it is one of a directory that cannot be entered. -/
def Visit.unreadable? : Visit → Option Location
  | unreadable location _ => some location
  | _ => none

theorem Visit.file?_eq_some {wanted : Location → Bool} {visit : Visit} {location : Location} :
    visit.file? wanted = some location ↔
      wanted location = true ∧ ∃ depth, visit = entry location depth false := by
  cases visit with
  | entry place depth isDirectory =>
      cases isDirectory with
      | true => simp [file?]
      | false =>
          rw [file?, Option.ite_none_right_eq_some, Option.some.injEq]
          constructor
          · rintro ⟨hWanted, rfl⟩
            exact ⟨hWanted, depth, rfl⟩
          · rintro ⟨hWanted, depth', hVisit⟩
            obtain ⟨rfl, -, -⟩ := Visit.entry.inj hVisit
            exact ⟨hWanted, rfl⟩
  | unreadable place error => simp [file?]

theorem Visit.unreadable?_eq_some {visit : Visit} {location : Location} :
    visit.unreadable? = some location ↔ ∃ error, visit = unreadable location error := by
  cases visit with
  | entry place depth isDirectory => simp [unreadable?]
  | unreadable place error => simp [unreadable?]

end Walk

namespace Volume

variable {volume : Volume} {options : Walk.Options} {root : Location}

/-- What is said of a place: a file is one, and so is a directory unless it should be entered and
does not open. -/
theorem visitAt_cases (options : Walk.Options) {names : List String} {tree : FileTree}
    (hFind : volume.find? (root ++ names) = some tree) :
    tree.isDirectory = false ∧
        volume.visitAt options root names tree = .entry (root ++ names) names.length false ∨
      tree.isDirectory = true ∧
        (DescendsFrom options names.length → volume.Opens options (root ++ names)) ∧
          volume.visitAt options root names tree = .entry (root ++ names) names.length true ∨
      tree.isDirectory = true ∧ DescendsFrom options names.length ∧
        ¬volume.Opens options (root ++ names) ∧
          ∃ error, volume.visitAt options root names tree = .unreadable (root ++ names) error := by
  cases tree with
  | file contents => exact .inl ⟨rfl, rfl⟩
  | directory entries =>
      refine .inr ?_
      rw [visitAt, Walk.lookAt]
      by_cases hDescends : DescendsFrom options names.length
      · rw [if_pos ((descends_iff _).mpr hDescends), Walk.Frame.enter]
        by_cases hOpens : volume.Opens options (root ++ names)
        · have hEnter := enter_of_opens hFind hOpens
          rw [FileTree.entries] at hEnter
          rw [hEnter]
          exact .inl ⟨rfl, fun _ => hOpens, rfl⟩
        · obtain ⟨error, hEnter⟩ := enter_of_not_opens hFind hOpens
          rw [FileTree.entries] at hEnter
          rw [hEnter]
          exact .inr ⟨rfl, hDescends, hOpens, error, rfl⟩
      · rw [if_neg fun h => hDescends ((descends_iff _).mp h)]
        exact .inl ⟨rfl, fun h => absurd h hDescends, rfl⟩

theorem exists_visitAt_file (options : Walk.Options) {names : List String} {tree : FileTree}
    {location : Location}
    (hFind : volume.find? (root ++ names) = some tree) :
    (∃ depth, .entry location depth false = volume.visitAt options root names tree) ↔
      location = root ++ names ∧ tree.isDirectory = false := by
  rcases visitAt_cases options hFind with
    ⟨hFile, hAt⟩ | ⟨hDirectory, -, hAt⟩ | ⟨hDirectory, -, -, error, hAt⟩
  · simp [hAt, hFile]
  · simp [hAt, hDirectory]
  · simp [hAt, hDirectory]

theorem exists_visitAt_unreadable (options : Walk.Options) {names : List String}
    {tree : FileTree} {location : Location}
    (hFind : volume.find? (root ++ names) = some tree) :
    (∃ error, .unreadable location error = volume.visitAt options root names tree) ↔
      location = root ++ names ∧ tree.isDirectory = true ∧ DescendsFrom options names.length ∧
        ¬volume.Opens options (root ++ names) := by
  rcases visitAt_cases options hFind with
    ⟨hFile, hAt⟩ | ⟨hDirectory, hOpens, hAt⟩ | ⟨hDirectory, hDescends, hOpens, error, hAt⟩
  · simp [hAt, hFile]
  · simpa [hAt, hDirectory] using fun _ => hOpens
  · simp [hAt, hDirectory, hDescends, hOpens]

theorem isFile_iff {location : Location} :
    volume.isFile location = true ↔
      ∃ tree, volume.find? location = some tree ∧ tree.isDirectory = false := by
  rw [isFile]
  cases volume.find? location with
  | none => simp
  | some tree =>
      cases tree with
      | file contents => simp [FileTree.isDirectory]
      | directory entries => simp [FileTree.isDirectory]

theorem isDirectory_iff {location : Location} :
    volume.isDirectory location = true ↔
      ∃ tree, volume.find? location = some tree ∧ tree.isDirectory = true := by
  rw [isDirectory, Option.any_eq_true]

/-! ## The listing -/

/-- A listing is made from a walk that has started in a directory that opens. -/
theorem exists_of_listFiles {wanted : Location → Bool} {listing : Listing}
    (h : volume.listFiles options root wanted = .ok listing) :
    ∃ tree visits, volume.find? root = some tree ∧ volume.Opens options root ∧
      volume.walk options root = .ok visits ∧
        listing = ⟨visits.filterMap (Walk.Visit.file? wanted),
          visits.filterMap Walk.Visit.unreadable?⟩ := by
  rw [listFiles] at h
  cases hWalk : volume.walk options root with
  | error error => simp [hWalk, Except.map] at h
  | ok visits =>
      obtain ⟨tree, hFind, hOpens⟩ := opens_of_walk hWalk
      rw [hWalk] at h
      exact ⟨tree, visits, hFind, hOpens, rfl, (Except.ok.inj h).symm⟩

theorem mem_files_iff {wanted : Location → Bool} {visits : List Walk.Visit} {location : Location} :
    location ∈ visits.filterMap (Walk.Visit.file? wanted) ↔
      wanted location = true ∧ ∃ depth, .entry location depth false ∈ visits := by
  rw [List.mem_filterMap]
  constructor
  · rintro ⟨visit, hVisit, hFile⟩
    obtain ⟨hWanted, depth, rfl⟩ := Walk.Visit.file?_eq_some.mp hFile
    exact ⟨hWanted, depth, hVisit⟩
  · rintro ⟨hWanted, depth, hVisit⟩
    exact ⟨_, hVisit, Walk.Visit.file?_eq_some.mpr ⟨hWanted, depth, rfl⟩⟩

theorem mem_unreadable_iff {visits : List Walk.Visit} {location : Location} :
    location ∈ visits.filterMap Walk.Visit.unreadable? ↔
      ∃ error, .unreadable location error ∈ visits := by
  rw [List.mem_filterMap]
  constructor
  · rintro ⟨visit, hVisit, hLocation⟩
    obtain ⟨error, rfl⟩ := Walk.Visit.unreadable?_eq_some.mp hLocation
    exact ⟨error, hVisit⟩
  · rintro ⟨error, hVisit⟩
    exact ⟨_, hVisit, Walk.Visit.unreadable?_eq_some.mpr ⟨error, rfl⟩⟩

/-- A listing is in pre-order. -/
theorem pairwise_listFiles (hTree : volume.tree.IsWellFormed) {wanted : Location → Bool}
    {listing : Listing} (h : volume.listFiles options root wanted = .ok listing) :
    listing.files.Pairwise Location.Precedes ∧ listing.unreadable.Pairwise Location.Precedes := by
  obtain ⟨tree, visits, hFind, hOpens, hWalk, rfl⟩ := exists_of_listFiles h
  have hOrder := pairwise_walk hTree hFind hOpens hWalk
  refine ⟨hOrder.filterMap _ ?_, hOrder.filterMap _ ?_⟩
  · intro visit next hPrecedes location hLocation other hOther
    obtain ⟨-, depth, rfl⟩ := Walk.Visit.file?_eq_some.mp hLocation
    obtain ⟨-, depth', rfl⟩ := Walk.Visit.file?_eq_some.mp hOther
    exact hPrecedes
  · intro visit next hPrecedes location hLocation other hOther
    obtain ⟨error, rfl⟩ := Walk.Visit.unreadable?_eq_some.mp hLocation
    obtain ⟨error', rfl⟩ := Walk.Visit.unreadable?_eq_some.mp hOther
    exact hPrecedes

/-- A directory of files alone lists those that are admitted and wanted, in the order of their
names. -/
theorem listFiles_of_files {tree : FileTree} (hFind : volume.find? root = some tree)
    (hOpens : volume.Opens options root)
    (hFiles : ∀ entry ∈ tree.entries, entry.2.isDirectory = false) (wanted : Location → Bool) :
    volume.listFiles options root wanted =
      .ok ⟨((Walk.inOrder tree.entries).map fun entry => root ++ [entry.1]).filter fun location =>
        Walk.admits options [volume.scopeAt options root] location false && wanted location,
          []⟩ := by
  have hSorted : ∀ entry ∈ Walk.inOrder tree.entries, entry.2.isDirectory = false :=
    fun entry hEntry => hFiles entry (mem_inOrder.mp hEntry)
  rw [listFiles, walk_of_opens hFind hOpens, Except.map, Except.ok.injEq]
  generalize Walk.inOrder tree.entries = sorted at hSorted ⊢
  induction sorted with
  | nil => rfl
  | cons entry rest ih =>
      have hRest := ih fun other hOther => hSorted other (List.mem_cons_of_mem _ hOther)
      rw [Listing.mk.injEq] at hRest ⊢
      obtain ⟨hListed, hUnreadable⟩ := hRest
      obtain ⟨name, child⟩ := entry
      have hChild : child.isDirectory = false := hSorted (name, child) List.mem_cons_self
      cases child with
      | directory entries => exact absurd hChild (by simp [FileTree.isDirectory])
      | file contents =>
          rw [List.flatMap_cons, Walk.visits_file, List.map_cons, List.filter_cons, ← hListed]
          by_cases hAdmits :
              Walk.admits options [volume.scopeAt options root] (root ++ [name]) false = true
          · rw [if_pos hAdmits, hAdmits, Bool.true_and, List.filterMap_append,
              List.filterMap_append, hUnreadable]
            by_cases hWanted : wanted (root ++ [name]) = true
            · simp [hWanted]
            · simp [hWanted]
          · simp [hAdmits, hUnreadable]

/-- What a walk visits stands below its root. -/
theorem visitAt_of_mem_walk {tree : FileTree} (hTree : volume.tree.IsWellFormed)
    (hFind : volume.find? root = some tree) (hOpens : volume.Opens options root)
    {visits : List Walk.Visit} (hWalk : volume.walk options root = .ok visits)
    {visit : Walk.Visit} (h : visit ∈ visits) :
    ∃ names below, names ≠ [] ∧ volume.find? (root ++ names) = some below ∧
      visit = volume.visitAt options root names below := by
  have hBelow : tree.IsWellFormed := (hTree.of_find? hFind).1
  rw [walk_of_opens hFind hOpens, Except.ok.injEq] at hWalk
  rw [← hWalk, List.mem_flatMap] at h
  obtain ⟨entry, hEntry, hVisit⟩ := h
  have hEntry := mem_inOrder.mp hEntry
  obtain ⟨rest, below, hFound, rfl⟩ :=
    Walk.lookAt_of_mem_visits (hBelow.of_mem hEntry) hVisit
  refine ⟨entry.1 :: rest, below, by simp, ?_, ?_⟩
  · rw [find?_append hFind, FileTree.find?_cons,
      hBelow.lookup_eq_some_iff.mpr hEntry]
    exact hFound
  · rw [visitAt, List.append_assoc, List.length_cons, Nat.add_comm 1]
    rfl

/-- A listed file is a file, and not the root. -/
theorem isFile_of_mem_listFiles (hTree : volume.tree.IsWellFormed) {wanted : Location → Bool}
    {listing : Listing} (h : volume.listFiles options root wanted = .ok listing)
    {location : Location} (hLocation : location ∈ listing.files) :
    location ≠ [] ∧ volume.isFile location = true := by
  obtain ⟨tree, visits, hFind, hOpens, hWalk, rfl⟩ := exists_of_listFiles h
  obtain ⟨-, depth, hVisit⟩ := mem_files_iff.mp hLocation
  obtain ⟨names, below, hNames, hFound, hEq⟩ :=
    visitAt_of_mem_walk hTree hFind hOpens hWalk hVisit
  obtain ⟨rfl, hFile⟩ := (exists_visitAt_file options hFound).mp ⟨depth, hEq⟩
  exact ⟨fun hNil => hNames (List.append_eq_nil_iff.mp hNil).2,
    isFile_iff.mpr ⟨below, hFound, hFile⟩⟩

/-- An unreadable location is a directory, and not the root. -/
theorem isDirectory_of_mem_listFiles (hTree : volume.tree.IsWellFormed)
    {wanted : Location → Bool} {listing : Listing}
    (h : volume.listFiles options root wanted = .ok listing) {location : Location}
    (hLocation : location ∈ listing.unreadable) :
    location ≠ [] ∧ volume.isDirectory location = true := by
  obtain ⟨tree, visits, hFind, hOpens, hWalk, rfl⟩ := exists_of_listFiles h
  obtain ⟨error, hVisit⟩ := mem_unreadable_iff.mp hLocation
  obtain ⟨names, below, hNames, hFound, hEq⟩ :=
    visitAt_of_mem_walk hTree hFind hOpens hWalk hVisit
  obtain ⟨rfl, hDirectory, -⟩ := (exists_visitAt_unreadable options hFound).mp ⟨error, hEq⟩
  exact ⟨fun hNil => hNames (List.append_eq_nil_iff.mp hNil).2,
    isDirectory_iff.mpr ⟨below, hFound, hDirectory⟩⟩

/-- The files of a listing are those that are reached and wanted. -/
theorem mem_listFiles_files (hTree : volume.tree.IsWellFormed)
    (hDepth : options.maxDepth ≠ some 0) {wanted : Location → Bool} {listing : Listing}
    (h : volume.listFiles options root wanted = .ok listing) {location : Location} :
    location ∈ listing.files ↔
      ∃ names, names ≠ [] ∧ location = root ++ names ∧ volume.isFile location = true ∧
        volume.Reaches options root names false ∧ wanted location = true := by
  obtain ⟨tree, visits, hFind, hOpens, hWalk, rfl⟩ := exists_of_listFiles h
  simp only [mem_files_iff, mem_walk hTree hFind hOpens hDepth hWalk, isFile_iff]
  constructor
  · rintro ⟨hWanted, depth, names, below, hNames, hFound, hReaches, hVisit⟩
    obtain ⟨rfl, hFile⟩ := (exists_visitAt_file options hFound).mp ⟨depth, hVisit⟩
    exact ⟨names, hNames, rfl, ⟨below, hFound, hFile⟩, hFile ▸ hReaches, hWanted⟩
  · rintro ⟨names, hNames, rfl, ⟨below, hFound, hFile⟩, hReaches, hWanted⟩
    obtain ⟨depth, hVisit⟩ := (exists_visitAt_file options hFound).mpr ⟨rfl, hFile⟩
    exact ⟨hWanted, depth, names, below, hNames, hFound, hFile.symm ▸ hReaches, hVisit⟩

/-- The unreadable locations of a listing are the directories that are reached, should be entered
and do not open. -/
theorem mem_listFiles_unreadable (hTree : volume.tree.IsWellFormed)
    (hDepth : options.maxDepth ≠ some 0) {wanted : Location → Bool} {listing : Listing}
    (h : volume.listFiles options root wanted = .ok listing) {location : Location} :
    location ∈ listing.unreadable ↔
      ∃ names, location = root ++ names ∧ volume.isDirectory location = true ∧
        volume.Reaches options root names true ∧ DescendsFrom options names.length ∧
          ¬volume.Opens options location := by
  obtain ⟨tree, visits, hFind, hOpens, hWalk, rfl⟩ := exists_of_listFiles h
  simp only [mem_unreadable_iff, mem_walk hTree hFind hOpens hDepth hWalk, isDirectory_iff]
  constructor
  · rintro ⟨error, names, below, -, hFound, hReaches, hVisit⟩
    obtain ⟨rfl, hDirectory, hDescends, hClosed⟩ :=
      (exists_visitAt_unreadable options hFound).mp ⟨error, hVisit⟩
    exact ⟨names, rfl, ⟨below, hFound, hDirectory⟩, hDirectory ▸ hReaches, hDescends, hClosed⟩
  · rintro ⟨names, rfl, ⟨below, hFound, hDirectory⟩, hReaches, hDescends, hClosed⟩
    -- The root opens, so it is not the place itself.
    have hNames : names ≠ [] := by
      rintro rfl
      rw [List.append_nil] at hClosed
      exact hClosed hOpens
    obtain ⟨error, hVisit⟩ := (exists_visitAt_unreadable options hFound).mpr
      ⟨rfl, hDirectory, hDescends, hClosed⟩
    exact ⟨error, names, below, hNames, hFound, hDirectory.symm ▸ hReaches, hVisit⟩

/-- From a root that opens a listing has exactly the files that are reached and wanted and the
directories that are reached and do not open, each of them once, in pre-order. -/
theorem exists_listFiles {tree : FileTree} (hTree : volume.tree.IsWellFormed)
    (hFind : volume.find? root = some tree) (hOpens : volume.Opens options root)
    (hDepth : options.maxDepth ≠ some 0) (wanted : Location → Bool) :
    ∃ listing, volume.listFiles options root wanted = .ok listing ∧
      (∀ location, location ∈ listing.files ↔
        ∃ names, names ≠ [] ∧ location = root ++ names ∧ volume.isFile location = true ∧
          volume.Reaches options root names false ∧ wanted location = true) ∧
      (∀ location, location ∈ listing.unreadable ↔
        ∃ names, location = root ++ names ∧ volume.isDirectory location = true ∧
          volume.Reaches options root names true ∧ DescendsFrom options names.length ∧
            ¬volume.Opens options location) ∧
      listing.files.Pairwise Location.Precedes ∧ listing.files.Nodup ∧
      listing.unreadable.Pairwise Location.Precedes ∧ listing.unreadable.Nodup := by
  obtain ⟨listing, hListing⟩ : ∃ listing, volume.listFiles options root wanted = .ok listing := by
    rw [listFiles, walk_of_opens hFind hOpens]
    exact ⟨_, rfl⟩
  obtain ⟨hFiles, hUnreadable⟩ := pairwise_listFiles hTree hListing
  exact ⟨listing, hListing, fun _ => mem_listFiles_files hTree hDepth hListing,
    fun _ => mem_listFiles_unreadable hTree hDepth hListing, hFiles,
    Location.nodup_of_precedes hFiles, hUnreadable, Location.nodup_of_precedes hUnreadable⟩

/-- A volume with a file of rules, a file that they say to ignore and a directory that cannot be
listed. -/
def guarded : Volume where
  tree := .directory
    [("b.yaml", .file (.text "b: 1")), (ignoreFileName, .file (.text "*.log")),
      ("a.log", .file (.text "a: 1")), ("shut", .directory [("c.yaml", .file (.text "c: 1"))])]
  locked := ["/shut"]

theorem exists_listFiles_guarded :
    ∃ listing, guarded.listFiles { maxDepth := some 2 } [] (fun _ => true) = .ok listing ∧
      ["b.yaml"] ∈ listing.files ∧ ["a.log"] ∉ listing.files ∧
        ["shut", "c.yaml"] ∉ listing.files ∧ ["shut"] ∈ listing.unreadable := by
  have hTree : guarded.tree.IsWellFormed := by
    refine .directory (by decide) (by decide) fun entry hEntry => ?_
    simp only [List.mem_cons, List.not_mem_nil, or_false] at hEntry
    rcases hEntry with rfl | rfl | rfl | rfl
    · exact .file _
    · exact .file _
    · exact .file _
    · exact .directory (by decide) (by decide) (by simpa using .file _)
  have hOpens : guarded.Opens { maxDepth := some 2 } [] := by
    refine ⟨by decide, fun _ octets h => ?_⟩
    have hText : guarded.find? [ignoreFileName] = some (.file (.text "*.log")) := rfl
    simp [hText] at h
  obtain ⟨listing, hListing, hFiles, hUnreadable, -⟩ :=
    exists_listFiles hTree rfl hOpens (by decide) (fun _ => true)
  have hEnters : guarded.Enters { maxDepth := some 2 } [] [] :=
    ⟨reaches_nil true, hOpens, fun limit hLimit => by
      rw [← Option.some.inj hLimit]
      decide⟩
  refine ⟨listing, hListing, (hFiles _).mpr ?_, fun h => ?_, fun h => ?_, (hUnreadable _).mpr ?_⟩
  · refine ⟨["b.yaml"], by simp, rfl, rfl, ?_, rfl⟩
    refine reaches_concat.mpr ⟨hEnters, by decide, fun hIgnored => ?_⟩
    exact absurd (isIgnored_singleton.mp hIgnored).2 (by decide +kernel)
  · obtain ⟨names, -, hNames, -, hReaches, -⟩ := (hFiles _).mp h
    obtain rfl : names = ["a.log"] := hNames.symm
    exact hReaches.not_ignored (isIgnored_singleton.mpr ⟨rfl, by decide +kernel⟩)
  · obtain ⟨names, -, hNames, -, hReaches, -⟩ := (hFiles _).mp h
    obtain rfl : names = ["shut", "c.yaml"] := hNames.symm
    have hShut := (hReaches.opens_above ["shut"] ["c.yaml"] rfl (by simp)).1
    exact absurd hShut (by decide)
  · refine ⟨["shut"], rfl, rfl, ?_, ?_, fun hShut => absurd hShut.1 (by decide)⟩
    · refine reaches_concat.mpr ⟨hEnters, by decide, fun hIgnored => ?_⟩
      exact absurd (isIgnored_singleton.mp hIgnored).2 (by decide +kernel)
    · intro limit hLimit
      rw [← Option.some.inj hLimit]
      decide

end Volume

end YamlIndex
