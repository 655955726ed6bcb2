import YamlIndex.Proofs.Walk.Listing

/-!
# Which file of rules decides

The directories above a place may each have a file of rules, and each file has a verdict on the
place or none.  A walk looks at them from the closest one outwards and leaves the place out when any
of them says to ignore it.  That is not to let the closest file with a verdict decide: where this
one readmits the place and one further out ignores it, the place is left out all the same.
Everywhere else the two come to the same.  What a file says of the places below it plays no part in
this, so the rules may be read in any way.

## Main results

* `mem_verdictsOn_ignored`: a place is ignored when one of the verdicts on it says so.
* `exists_visit_iff`: a place is visited when its root reaches it.
* `left_out_iff_mem_verdictsOn`: which entries of a directory that is looked into are left out, and
  when the closest verdict would say the same.
-/

namespace YamlIndex.Volume

variable {volume : Volume} {options : Walk.Options} {root : Location}

/-! ## The verdicts on a place -/

/-- What the files of rules above a place say of it, each for itself, the closest one first. -/
def verdictsOn (volume : Volume) (options : Walk.Options) (root : Location) (names : List String)
    (isDirectory : Bool) : List (Option Verdict) :=
  (Location.above names).map fun above =>
    volume.rulesAt options (root ++ above) (names.drop above.length) isDirectory

/-- The verdict on a place of the closest file of rules that has one. -/
def closestVerdict? (volume : Volume) (options : Walk.Options) (root : Location)
    (names : List String) (isDirectory : Bool) : Option Verdict :=
  (volume.verdictsOn options root names isDirectory).findSome? id

/-- A place is ignored when one of the files above it says so. -/
theorem mem_verdictsOn_ignored (hHeed : options.heedIgnoreFiles = true) {names : List String}
    {isDirectory : Bool} :
    some .ignored ∈ volume.verdictsOn options root names isDirectory ↔
      volume.IsIgnored options root names isDirectory := by
  rw [verdictsOn, List.mem_map]
  constructor
  · rintro ⟨above, hAbove, hVerdict⟩
    obtain ⟨rest, rfl, hRest⟩ := Location.mem_above_iff.mp hAbove
    rw [List.drop_left] at hVerdict
    exact ⟨hHeed, above, rest, rfl, hRest, hVerdict⟩
  · rintro ⟨-, above, rest, rfl, hRest, hVerdict⟩
    refine ⟨above, Location.mem_above_iff.mpr ⟨rest, rfl, hRest⟩, ?_⟩
    rwa [List.drop_left]

/-- The closest verdict is one of the verdicts, so that it says to ignore a place when one of them
does, unless it readmits what another one ignores. -/
theorem mem_iff_closest_iff (verdicts : List (Option Verdict)) :
    (some .ignored ∈ verdicts ↔ verdicts.findSome? id = some .ignored) ↔
      ¬(verdicts.findSome? id = some .readmitted ∧ some .ignored ∈ verdicts) := by
  cases hClosest : verdicts.findSome? id with
  | none =>
      have hNone : some .ignored ∉ verdicts := fun hMem =>
        absurd (List.findSome?_eq_none_iff.mp hClosest _ hMem) (by simp)
      simp [hNone]
  | some verdict =>
      cases verdict with
      | ignored =>
          have hMem : some .ignored ∈ verdicts := by
            obtain ⟨verdict, hMem, rfl⟩ := List.exists_of_findSome?_eq_some hClosest
            exact hMem
          simp [hMem]
      | readmitted => simp

/-! ## What is visited -/

theorem location_visitAt (names : List String) (tree : FileTree) :
    (volume.visitAt options root names tree).location = root ++ names :=
  Walk.location_lookAt ..

/-- A place is visited when its root reaches it. -/
theorem exists_visit_iff (hTree : volume.tree.IsWellFormed) (hDepth : options.maxDepth ≠ some 0)
    {visits : List Walk.Visit} (hWalk : volume.walk options root = .ok visits)
    {names : List String} (hNames : names ≠ []) {tree : FileTree}
    (hFind : volume.find? (root ++ names) = some tree) :
    (∃ visit ∈ visits, visit.location = root ++ names) ↔
      volume.Reaches options root names tree.isDirectory := by
  obtain ⟨top, hTop, hOpens⟩ := opens_of_walk hWalk
  constructor
  · rintro ⟨visit, hVisit, hLocation⟩
    obtain ⟨others, below, -, hBelow, hReaches, rfl⟩ :=
      (mem_walk hTree hTop hOpens hDepth hWalk).mp hVisit
    rw [location_visitAt] at hLocation
    obtain rfl := List.append_cancel_left hLocation
    rw [hFind] at hBelow
    rwa [Option.some.inj hBelow]
  · intro hReaches
    exact ⟨_, (mem_walk hTree hTop hOpens hDepth hWalk).mpr
      ⟨names, tree, hNames, hFind, hReaches, rfl⟩, location_visitAt names tree⟩

/-- An entry of the root is visited when it is admitted there.  The root is looked into even where
no directory may be entered, so this is not a case of the lemma above. -/
theorem exists_visit_singleton_iff (hTree : volume.tree.IsWellFormed)
    {visits : List Walk.Visit} (hWalk : volume.walk options root = .ok visits) {name : String}
    {tree : FileTree} (hFind : volume.find? (root ++ [name]) = some tree) :
    (∃ visit ∈ visits, visit.location = root ++ [name]) ↔
      Walk.skipsName options name = false ∧
        ¬volume.IsIgnored options root [name] tree.isDirectory := by
  obtain ⟨top, hTop, hOpens⟩ := opens_of_walk hWalk
  have hBelow : top.IsWellFormed := (hTree.of_find? hTop).1
  have hEntry : (name, tree) ∈ top.entries := by
    rw [find?, FileTree.find?_concat hTop] at hFind
    exact hBelow.lookup_eq_some_iff.mp hFind
  have hAdmits : Walk.admits options [volume.scopeAt options root] (root ++ [name])
      tree.isDirectory = true ↔ Walk.skipsName options name = false ∧
        ¬volume.IsIgnored options root [name] tree.isDirectory :=
    admits_iff hasScopes_nil name tree.isDirectory
  rw [walk_of_opens hTop hOpens, Except.ok.injEq] at hWalk
  rw [← hAdmits, ← hWalk]
  simp only [List.mem_flatMap, mem_inOrder]
  constructor
  · rintro ⟨visit, ⟨other, hOther, hVisit⟩, hLocation⟩
    -- What is visited below another entry stands below that entry.
    have hPrefix := Walk.prefix_of_mem_visits (hBelow.of_mem hOther) hVisit
    rw [hLocation, List.prefix_append_right_inj] at hPrefix
    obtain rfl : other.1 = name := by simpa using hPrefix
    obtain rfl : other.2 = tree := Option.some.inj <|
      (hBelow.lookup_eq_some_iff.mpr hOther).symm.trans (hBelow.lookup_eq_some_iff.mpr hEntry)
    rw [Walk.visits_eq] at hVisit
    by_contra hNot
    rw [if_neg hNot] at hVisit
    exact absurd hVisit (by simp)
  · intro hAdmitted
    refine ⟨(Walk.lookAt options volume.isLocked (root ++ [name]) 1 tree).1,
      ⟨(name, tree), hEntry, ?_⟩, Walk.location_lookAt ..⟩
    rw [Walk.visits_eq, if_pos hAdmitted]
    exact List.mem_cons_self

/-- Whether a walk looks at the entries of the directory that names lead to: the root, or one that
is visited and not too deep to be entered. -/
def LooksInto (options : Walk.Options) (root : Location) (visits : List Walk.Visit)
    (names : List String) : Prop :=
  names = [] ∨
    (∃ depth, .entry (root ++ names) depth true ∈ visits) ∧ DescendsFrom options names.length

/-- A directory below the root that is looked into is entered. -/
theorem LooksInto.enters (hTree : volume.tree.IsWellFormed) {visits : List Walk.Visit}
    (hWalk : volume.walk options root = .ok visits) {names : List String} (hNames : names ≠ [])
    (h : LooksInto options root visits names) : volume.Enters options root names := by
  obtain ⟨⟨depth, hVisit⟩, hDescends⟩ := h.resolve_left hNames
  obtain ⟨top, hTop, hOpens⟩ := opens_of_walk hWalk
  have hDepth := hDescends.maxDepth_ne_zero
  obtain ⟨others, below, -, hFind, hReaches, hAt⟩ :=
    (mem_walk hTree hTop hOpens hDepth hWalk).mp hVisit
  rcases visitAt_cases options hFind with
    ⟨-, hFile⟩ | ⟨hDirectory, hEntered, hSelf⟩ | ⟨-, -, -, error, hShut⟩
  · rw [hFile] at hAt
    exact absurd (Walk.Visit.entry.inj hAt).2.2 (by simp)
  · rw [hSelf] at hAt
    obtain rfl : names = others := List.append_cancel_left (Walk.Visit.entry.inj hAt).1
    exact ⟨hDirectory ▸ hReaches, hEntered hDescends, hDescends⟩
  · rw [hShut] at hAt
    exact absurd hAt (by simp)

/-- An entry of a directory that is looked into is visited when it is admitted there. -/
theorem exists_visit_concat_iff (hTree : volume.tree.IsWellFormed) {visits : List Walk.Visit}
    (hWalk : volume.walk options root = .ok visits) {above : List String} {name : String}
    {entry : FileTree} (hEntry : volume.find? (root ++ (above ++ [name])) = some entry)
    (hLooks : LooksInto options root visits above) :
    (∃ visit ∈ visits, visit.location = root ++ (above ++ [name])) ↔
      Walk.skipsName options name = false ∧
        ¬volume.IsIgnored options root (above ++ [name]) entry.isDirectory := by
  cases above with
  | nil => exact exists_visit_singleton_iff hTree hWalk hEntry
  | cons first others =>
      have hEnters := hLooks.enters hTree hWalk (by simp)
      rw [exists_visit_iff hTree hEnters.descends.maxDepth_ne_zero hWalk (by simp) hEntry,
        reaches_concat]
      exact and_iff_right hEnters

/-! ## What is left out -/

/-- An entry of a directory that is looked into, with a name that is not left out by itself, is left
out when one of the files of rules above it says to ignore it.  This is what the closest file with a
verdict says, unless that one readmits the entry and another one ignores it. -/
theorem left_out_iff_mem_verdictsOn (hTree : volume.tree.IsWellFormed)
    (hHeed : options.heedIgnoreFiles = true) {visits : List Walk.Visit}
    (hWalk : volume.walk options root = .ok visits) {above : List String} {name : String}
    {entry : FileTree} (hEntry : volume.find? (root ++ (above ++ [name])) = some entry)
    (hLooks : LooksInto options root visits above)
    (hName : Walk.skipsName options name = false) :
    ((∀ visit ∈ visits, visit.location ≠ root ++ (above ++ [name])) ↔
        some .ignored ∈ volume.verdictsOn options root (above ++ [name]) entry.isDirectory) ∧
      (((∀ visit ∈ visits, visit.location ≠ root ++ (above ++ [name])) ↔
          volume.closestVerdict? options root (above ++ [name]) entry.isDirectory = some .ignored) ↔
        ¬(volume.closestVerdict? options root (above ++ [name]) entry.isDirectory =
            some .readmitted ∧
          some .ignored ∈ volume.verdictsOn options root (above ++ [name]) entry.isDirectory)) := by
  have hLeftOut : (∀ visit ∈ visits, visit.location ≠ root ++ (above ++ [name])) ↔
      some .ignored ∈ volume.verdictsOn options root (above ++ [name]) entry.isDirectory := by
    have hVisited := exists_visit_concat_iff hTree hWalk hEntry hLooks
    rw [and_iff_right hName, ← mem_verdictsOn_ignored hHeed] at hVisited
    rw [← not_iff_not, ← hVisited]
    simp only [ne_eq, not_forall, not_not, exists_prop]
  exact ⟨hLeftOut, by rw [hLeftOut]; exact mem_iff_closest_iff _⟩

/-- A volume with rules that ignore some files, and others below that readmit one of them. -/
def readmitting : Volume where
  tree := .directory
    [(ignoreFileName, .file (.text "*.yaml")),
      ("sub", .directory
        [(ignoreFileName, .file (.text "!a.yaml")), ("a.yaml", .file (.text "a: 1"))])]

/-- The file is readmitted by the closest rules and left out by those of the root. -/
theorem left_out_readmitting :
    ∃ visits, readmitting.walk {} [] = .ok visits ∧ .entry ["sub"] 1 true ∈ visits ∧
      (∀ visit ∈ visits, visit.location ≠ ["sub", "a.yaml"]) ∧
        readmitting.closestVerdict? {} [] ["sub", "a.yaml"] false = some .readmitted := by
  have hSubTree : FileTree.IsWellFormed (.directory
      [(ignoreFileName, .file (.text "!a.yaml")), ("a.yaml", .file (.text "a: 1"))]) :=
    .directory (by decide) (by decide) (by simp [FileTree.IsWellFormed.file])
  have hTree : readmitting.tree.IsWellFormed :=
    .directory (by decide) (by decide) (by simp [FileTree.IsWellFormed.file, hSubTree])
  have hOpens : readmitting.Opens {} [] := .of_text "*.yaml" (by decide) rfl
  obtain ⟨visits, hWalk⟩ : ∃ visits, readmitting.walk {} [] = .ok visits :=
    ⟨_, walk_of_opens rfl hOpens⟩
  have hSub : .entry ["sub"] 1 true ∈ visits := by
    refine (mem_walk hTree rfl hOpens (by decide) hWalk).mpr
      ⟨["sub"], _, by simp, rfl, ?_, by decide +kernel⟩
    refine reaches_concat.mpr ⟨⟨reaches_nil true, hOpens, by simp [DescendsFrom]⟩, by decide, ?_⟩
    exact fun hIgnored => absurd (isIgnored_singleton.mp hIgnored).2 (by decide +kernel)
  have hLooks : LooksInto {} [] visits ["sub"] :=
    .inr ⟨⟨1, hSub⟩, by simp [DescendsFrom]⟩
  have hFile : readmitting.find? ([] ++ (["sub"] ++ ["a.yaml"])) = some (.file (.text "a: 1")) :=
    rfl
  have hLeftOut := left_out_iff_mem_verdictsOn hTree rfl hWalk hFile hLooks (by decide)
  exact ⟨visits, hWalk, hSub, hLeftOut.1.mpr (by decide +kernel), by decide +kernel⟩

end YamlIndex.Volume
