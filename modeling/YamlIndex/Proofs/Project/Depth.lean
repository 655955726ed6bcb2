import YamlIndex.Proofs.Project.Index
import YamlIndex.Session.Project

/-!
# How deep a walk goes

A limit on the depth of a walk is asked for when a directory is about to be entered, and not when an
entry is visited.  That the limit holds is therefore a matter of the frames on the stack: the
entries of a frame are no deeper than the limit, and a frame is put on top of another one only where
the limit leaves room for its entries.  The first frame is there without having been asked for, so
the entries of the root are visited even when the limit is zero: the limit zero is the limit one.

## Main results

* `isWithin_of_mem_run`: from frames within a number of levels nothing deeper is visited.
* `walk_zero`: a walk with the limit zero is one with the limit one.
* `depth_limit_holds_iff`: the limit holds for a walk, and for all that is done with its files, just
  if it is not zero or there is nothing to visit.
-/

namespace YamlIndex

/-- Whether a location is below a root, by at most the given number of levels. -/
def Location.IsWithin (location : Location) (levels : Nat) (root : Location) : Prop :=
  ∃ names, location = root ++ names ∧ names ≠ [] ∧ names.length ≤ levels

theorem Location.not_isWithin_zero (location root : Location) : ¬location.IsWithin 0 root := by
  rintro ⟨names, -, hNe, hLength⟩
  exact hNe (List.length_eq_zero_iff.mp (Nat.le_zero.mp hLength))

namespace Walk

variable {options : Options} {isLocked : Location → Bool} {levels : Nat} {root : Location}

/-! ## Levels along the stack -/

/-- Whether a visit is below a root by at most the given number of levels, and an entry says how
many they are. -/
structure Visit.IsWithin (visit : Visit) (levels : Nat) (root : Location) : Prop where
  location : visit.location.IsWithin levels root
  depth : ∀ location depth isDirectory, visit = .entry location depth isDirectory →
    location.length = root.length + depth

/-- Whether a frame is that of a root or of a directory below it, and its entries are below the root
by at most the given number of levels. -/
def Frame.IsWithin (frame : Frame) (levels : Nat) (root : Location) : Prop :=
  ∃ names, frame.location = root ++ names ∧ frame.depth = names.length + 1 ∧
    names.length + 1 ≤ levels

theorem depth_of_lookAt {location place : Location} {depth number : Nat} {tree : FileTree}
    {isDirectory : Bool}
    (h : (lookAt options isLocked location depth tree).1 = .entry place number isDirectory) :
    number = depth := by
  cases tree with
  | file contents => exact (Visit.entry.inj h).2.1.symm
  | directory entries =>
      rw [lookAt] at h
      split at h
      · split at h
        · exact absurd h (by simp)
        · exact (Visit.entry.inj h).2.1.symm
      · exact (Visit.entry.inj h).2.1.symm

/-- What is visited at an entry of a frame is as deep as the frame allows, and so is the frame of
what is below the entry when no directory is entered on the last level. -/
theorem Frame.IsWithin.lookAt (hLevels : ∀ depth, descends options depth = true → depth < levels)
    (isLocked : Location → Bool) {frame : Frame} (hFrame : frame.IsWithin levels root)
    (name : String) (tree : FileTree) :
    (Walk.lookAt options isLocked (frame.location ++ [name]) frame.depth tree).1.IsWithin levels
        root ∧
      ∀ inner ∈ (Walk.lookAt options isLocked (frame.location ++ [name]) frame.depth tree).2,
        inner.IsWithin levels root := by
  obtain ⟨names, hLocation, hDepth, hLevel⟩ := hFrame
  have hPlace : frame.location ++ [name] = root ++ (names ++ [name]) := by
    rw [hLocation, List.append_assoc]
  have hLength : (names ++ [name]).length = frame.depth := by
    rw [List.length_append, List.length_singleton, hDepth]
  constructor
  · refine ⟨⟨names ++ [name], ?_, by simp, ?_⟩, fun place number isDirectory hVisit => ?_⟩
    · rw [location_lookAt, hPlace]
    · rwa [hLength, hDepth]
    · have hWhere : (Walk.lookAt options isLocked (frame.location ++ [name]) frame.depth
          tree).1.location = frame.location ++ [name] := location_lookAt ..
      rw [hVisit] at hWhere
      rw [depth_of_lookAt hVisit, ← hLength, ← List.length_append, ← hPlace]
      exact congrArg List.length hWhere
  · intro inner hInner
    obtain ⟨entries, -, hDescends, hEnter⟩ := lookAt_inner.mp hInner
    obtain ⟨scope, -, rfl⟩ := enter_eq_ok hEnter
    have hRoom := hLevels _ hDescends
    exact ⟨names ++ [name], hPlace, by rw [hLength], by rw [hLength]; exact hRoom⟩

/-- A turn visits nothing below the given levels and puts no such frame on the stack. -/
theorem isWithin_turn (hLevels : ∀ depth, descends options depth = true → depth < levels)
    (isLocked : Location → Bool) {frame : Frame} {below : List Frame}
    (hStack : ∀ other ∈ frame :: below, other.IsWithin levels root) :
    (∀ visit ∈ (turn options isLocked frame below).1, visit.IsWithin levels root) ∧
      ∀ other ∈ (turn options isLocked frame below).2, other.IsWithin levels root := by
  obtain ⟨hFrame, hBelow⟩ := List.forall_mem_cons.mp hStack
  cases hPending : frame.pending with
  | nil =>
      rw [turn_nil hPending]
      exact ⟨fun visit hVisit => absurd hVisit (by simp), hBelow⟩
  | cons entry rest =>
      obtain ⟨name, child⟩ := entry
      have hRest : ∀ other ∈ { frame with pending := rest } :: below,
          other.IsWithin levels root :=
        List.forall_mem_cons.mpr ⟨hFrame, hBelow⟩
      obtain ⟨hVisit, hInner⟩ := hFrame.lookAt hLevels isLocked name child
      rw [turn_cons options isLocked hPending]
      split
      · refine ⟨fun visit hMem => Option.mem_some.mp hMem ▸ hVisit, fun other hOther => ?_⟩
        rcases List.mem_append.mp hOther with hNew | hOld
        · exact hInner other (Option.mem_toList.mp hNew)
        · exact hRest other hOld
      · exact ⟨fun visit hMem => absurd hMem (by simp), hRest⟩

/-- From frames within a number of levels nothing deeper is visited, if no directory is entered on
the last of these levels. -/
theorem isWithin_of_mem_run (hLevels : ∀ depth, descends options depth = true → depth < levels)
    {stack : List Frame} (hStack : ∀ frame ∈ stack, frame.IsWithin levels root) :
    ∀ visit ∈ run options isLocked stack, visit.IsWithin levels root := by
  fun_induction run options isLocked stack with
  | case1 => exact fun visit hVisit => absurd hVisit (by simp)
  | case2 frame below visit stack hTurn ih =>
      have hNext := isWithin_turn hLevels isLocked hStack
      rw [hTurn] at hNext
      intro other hOther
      rcases List.mem_append.mp hOther with hNow | hLater
      · exact hNext.1 other (Option.mem_toList.mp hNow)
      · exact ih hNext.2 other hLater

/-! ## The limit zero -/

/-- Options that admit the entries of the root and nothing below them. -/
def Options.toOneLevel (options : Options) : Options :=
  { options with maxDepth := some 1 }

theorem lookAt_toOneLevel (hZero : options.maxDepth = some 0) (location : Location) {depth : Nat}
    (hDepth : 0 < depth) (tree : FileTree) :
    lookAt options.toOneLevel isLocked location depth tree =
      lookAt options isLocked location depth tree := by
  cases tree with
  | file contents => rfl
  | directory entries =>
      have hOne : descends options.toOneLevel depth = false :=
        decide_eq_false (Nat.not_lt.mpr hDepth)
      have hNone : descends options depth = false := by
        rw [descends, hZero]
        exact decide_eq_false (Nat.not_lt_zero depth)
      rw [lookAt, lookAt, hOne, hNone]
      rfl

/-- Frames have entries on some level, where a limit of zero and one of one say the same. -/
theorem run_toOneLevel (hZero : options.maxDepth = some 0) {stack : List Frame}
    (hStack : ∀ frame ∈ stack, frame.IsWithin 1 root) :
    run options.toOneLevel isLocked stack = run options isLocked stack := by
  have hLevels : ∀ depth, descends options depth = true → depth < 1 := by
    intro depth hDescends
    rw [descends, hZero] at hDescends
    exact absurd (of_decide_eq_true hDescends) (Nat.not_lt_zero depth)
  fun_induction run options isLocked stack with
  | case1 => rw [run]
  | case2 frame below visit stack hTurn ih =>
      have hNext := isWithin_turn hLevels isLocked hStack
      rw [hTurn] at hNext
      obtain ⟨names, -, hDepth, -⟩ := hStack frame List.mem_cons_self
      have hSame : turn options.toOneLevel isLocked frame below =
          turn options isLocked frame below := by
        cases hPending : frame.pending with
        | nil => rw [turn_nil hPending, turn_nil hPending]
        | cons entry rest =>
            rw [turn_cons _ _ hPending, turn_cons _ _ hPending,
              lookAt_toOneLevel hZero _ (hDepth ▸ Nat.succ_pos _)]
            rfl
      rw [run_cons_eq, hSame, hTurn, ih hNext.2]

end Walk

/-! ## The limit of a walk -/

namespace Volume

variable {volume : Volume} {options : Walk.Options} {root : Location} {limit : Nat}

/-- The frame that a walk starts with has entries on the first level. -/
theorem exists_start {visits : List Walk.Visit} (h : volume.walk options root = .ok visits) :
    ∃ tree frame, volume.find? root = some tree ∧
      Walk.Frame.enter options volume.isLocked root 1 tree.entries = .ok frame ∧
        visits = Walk.run options volume.isLocked [frame] ∧
          ∀ levels, 1 ≤ levels → ∀ other ∈ [frame], other.IsWithin levels root := by
  rw [walk] at h
  cases hFind : volume.find? root with
  | none => simp [hFind] at h
  | some tree =>
      rw [hFind] at h
      dsimp only at h
      cases hEnter : Walk.Frame.enter options volume.isLocked root 1 tree.entries with
      | error error => simp [hEnter] at h
      | ok frame =>
          rw [hEnter] at h
          obtain ⟨scope, -, rfl⟩ := Walk.enter_eq_ok hEnter
          refine ⟨tree, _, rfl, hEnter, (Except.ok.inj h).symm, ?_⟩
          intro levels hLevels other hOther
          rw [List.mem_singleton.mp hOther]
          exact ⟨[], (List.append_nil root).symm, rfl, hLevels⟩

/-- What a walk visits is as deep as the limit says, or on the first level. -/
theorem isWithin_of_mem_walk (hLimit : options.maxDepth = some limit) {visits : List Walk.Visit}
    (hWalk : volume.walk options root = .ok visits) :
    ∀ visit ∈ visits, visit.IsWithin (max limit 1) root := by
  obtain ⟨tree, frame, -, -, rfl, hStart⟩ := exists_start hWalk
  refine Walk.isWithin_of_mem_run (fun depth hDescends => ?_) (hStart _ (Nat.le_max_right limit 1))
  rw [Walk.descends, hLimit] at hDescends
  exact Nat.lt_of_lt_of_le (of_decide_eq_true hDescends) (Nat.le_max_left limit 1)

/-- A walk with the limit zero is one with the limit one. -/
theorem walk_zero (hZero : options.maxDepth = some 0) {visits : List Walk.Visit}
    (hWalk : volume.walk options root = .ok visits) :
    volume.walk options.toOneLevel root = .ok visits := by
  obtain ⟨tree, frame, hFind, hEnter, rfl, hStart⟩ := exists_start hWalk
  have hEnter' : Walk.Frame.enter options.toOneLevel volume.isLocked root 1 tree.entries =
      .ok frame := hEnter
  rw [walk, hFind]
  dsimp only
  rw [hEnter']
  dsimp only
  rw [Walk.run_toOneLevel hZero (hStart 1 (Nat.le_refl 1))]

/-- Where nothing is within zero levels, what is within a limit or on the first level is within the
limit just if this is not zero or there is nothing. -/
theorem forall_mem_limit_iff {α : Type} {P : α → Nat → Prop} (hZero : ∀ x, ¬P x 0) {xs : List α}
    (h : ∀ x ∈ xs, P x (max limit 1)) : (∀ x ∈ xs, P x limit) ↔ limit ≠ 0 ∨ xs = [] := by
  cases limit with
  | zero =>
      constructor
      · exact fun hAll => .inr (List.eq_nil_iff_forall_not_mem.mpr fun x hx => hZero x (hAll x hx))
      · rintro (hNe | rfl)
        · exact absurd rfl hNe
        · simp
  | succ n =>
      rw [Nat.max_eq_left (Nat.le_add_left 1 n)] at h
      exact ⟨fun _ => .inl (Nat.succ_ne_zero n), fun _ => h⟩

/-- The files of a listing are as deep as the limit says, or on the first level. -/
theorem isWithin_of_mem_list (hLimit : options.maxDepth = some limit)
    {wanted : Location → Bool} {listing : Listing}
    (h : volume.listFiles options root wanted = .ok listing) :
    ∀ location ∈ listing.files, location.IsWithin (max limit 1) root := by
  obtain ⟨-, visits, -, -, hWalk, rfl⟩ := exists_of_listFiles h
  intro location hLocation
  obtain ⟨-, depth, hVisit⟩ := mem_files_iff.mp hLocation
  exact (isWithin_of_mem_walk hLimit hWalk _ hVisit).location

/-- Whatever a walk visits is below its root by at most the limit, or by one level where the limit
is zero: this one acts like the limit one.  So the limit holds just if it is not zero or there is
nothing to visit, and it holds in the same way for the files that a scanner lists, which are those
that a scan indexes and that a session asks for. -/
theorem depth_limit_holds_iff (hLimit : options.maxDepth = some limit) {visits : List Walk.Visit}
    (hWalk : volume.walk options root = .ok visits) :
    (∀ visit ∈ visits, visit.IsWithin (max limit 1) root) ∧
      ((∀ visit ∈ visits, visit.IsWithin limit root) ↔ limit ≠ 0 ∨ visits = []) ∧
      (limit = 0 → volume.walk options.toOneLevel root = .ok visits) ∧
      ∀ scanner : Project.Scanner, scanner.volume = volume → scanner.root = root →
        scanner.options.walk = options →
          ∃ listing, scanner.list = .ok listing ∧
            (∀ location ∈ listing.files, location.IsWithin (max limit 1) root) ∧
            ((∀ location ∈ listing.files, location.IsWithin limit root) ↔
              limit ≠ 0 ∨ listing.files = []) ∧
            (∀ reader, ∃ index, scanner.scan reader = .ok index ∧
              ∀ file ∈ index.files, ∃ location ∈ listing.files, file = scanner.metaOf location) ∧
            ∀ (session : Session) (kind : EntryKind), session.projectEntries kind scanner =
              .ok (Session.collect kind scanner listing.files session) := by
  have hVisits := isWithin_of_mem_walk hLimit hWalk
  refine ⟨hVisits, ?_, ?_, ?_⟩
  · exact forall_mem_limit_iff (P := fun visit levels => Walk.Visit.IsWithin visit levels root)
      (fun visit hZero => visit.location.not_isWithin_zero root hZero.location) hVisits
  · rintro rfl
    exact walk_zero hLimit hWalk
  · rintro scanner rfl rfl rfl
    obtain ⟨listing, hList⟩ : ∃ listing, scanner.list = .ok listing := by
      rw [Project.Scanner.list, listFiles, hWalk]
      exact ⟨_, rfl⟩
    obtain ⟨wanted, hFiles⟩ := Project.Scanner.listFiles_of_list hList
    have hWithin := isWithin_of_mem_list hLimit hFiles
    refine ⟨listing, hList, hWithin, ?_, fun reader => ?_, fun session kind => ?_⟩
    · exact forall_mem_limit_iff
        (P := fun location levels => Location.IsWithin location levels scanner.root)
        (fun location => Location.not_isWithin_zero location scanner.root) hWithin
    · refine ⟨_, Project.Scanner.scan_of_list reader hList, fun file hFile => ?_⟩
      rw [Project.Scanner.files_indexFor] at hFile
      obtain ⟨location, hLocation, rfl⟩ := List.mem_map.mp hFile
      exact ⟨location, (List.mem_filter.mp hLocation).1, rfl⟩
    · rw [Session.projectEntries, hList]
      rfl

/-- A volume with nothing but a file on it. -/
def withOneFile : Volume where
  tree := .directory [("a.yaml", .file (.text "a: 1"))]

/-- A walk with the limit zero visits the file below the root all the same. -/
theorem depth_limit_holds_iff_zero :
    ∃ visits, withOneFile.walk { maxDepth := some 0 } [] = .ok visits ∧
      .entry ["a.yaml"] 1 false ∈ visits ∧ ¬∀ visit ∈ visits, visit.IsWithin 0 [] := by
  have hNoRules : withOneFile.find? ([] ++ [ignoreFileName]) = none := rfl
  have hOpens : withOneFile.Opens { maxDepth := some 0 } [] :=
    ⟨by decide, fun _ octets hOctets => absurd (hNoRules.symm.trans hOctets) (by simp)⟩
  obtain ⟨visits, hWalk⟩ : ∃ visits, withOneFile.walk { maxDepth := some 0 } [] = .ok visits :=
    ⟨_, walk_of_opens rfl hOpens⟩
  have hVisited := hWalk.symm.trans (walk_of_opens rfl hOpens)
  have hFile : .entry ["a.yaml"] 1 false ∈ visits := by
    rw [Except.ok.inj hVisited]
    refine List.mem_flatMap.mpr ⟨("a.yaml", _), mem_inOrder.mpr List.mem_cons_self, ?_⟩
    rw [Walk.visits_file]
    decide
  obtain ⟨-, hHolds, -⟩ := depth_limit_holds_iff rfl hWalk
  refine ⟨visits, hWalk, hFile, fun hAll => ?_⟩
  rcases hHolds.mp hAll with hNe | hNil
  · exact hNe rfl
  · rw [hNil] at hFile
    exact absurd hFile (by simp)

end Volume

end YamlIndex
