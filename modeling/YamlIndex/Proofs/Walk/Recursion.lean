import YamlIndex.Walk

/-!
# A walk without a stack

What a walk visits below an entry is a matter of the entry and of the rules above it.  The stack of
the walk is the way from the root to the entry that is looked at, so what is left of a walk is what
is left in the frame on top, followed by what is left of the walk without that frame.

## Main results

* `run_cons`: the frames of a stack are worked off one after the other.
* `Volume.walk_eq`: a walk visits what is below the entries of its root, one by one.
-/

namespace YamlIndex

namespace Walk

variable {options : Options} {isLocked : Location → Bool}

theorem enter_eq_ok {location : Location} {depth : Nat} {entries : List (String × FileTree)}
    {frame : Frame} (h : Frame.enter options isLocked location depth entries = .ok frame) :
    ∃ scope, Walk.enter options isLocked location entries = .ok scope ∧
      frame = ⟨location, depth, scope, inOrder entries⟩ := by
  unfold Frame.enter at h
  cases hScope : Walk.enter options isLocked location entries with
  | error error => simp [hScope, Except.map] at h
  | ok scope =>
      simp only [hScope, Except.map, Except.ok.injEq] at h
      exact ⟨scope, rfl, h.symm⟩

/-- What is below a place is there when the place is a directory that may be entered. -/
theorem lookAt_inner {location : Location} {depth : Nat} {tree : FileTree} {inner : Frame} :
    (lookAt options isLocked location depth tree).2 = some inner ↔
      ∃ entries, tree = .directory entries ∧ descends options depth = true ∧
        Frame.enter options isLocked location (depth + 1) entries = .ok inner := by
  cases tree with
  | file contents => simp [lookAt]
  | directory entries =>
      cases hDescends : descends options depth with
      | false => simp [lookAt, hDescends]
      | true =>
          cases hEnter : Frame.enter options isLocked location (depth + 1) entries with
          | error error => simp [lookAt, hDescends, hEnter]
          | ok frame => simp [lookAt, hDescends, hEnter]

theorem weight_le_of_mem {entries : List (String × FileTree)} {entry : String × FileTree}
    (h : entry ∈ entries) : weight entry.2 ≤ weightOfEntries entries := by
  obtain ⟨front, back, rfl⟩ := List.append_of_mem h
  rw [weightOfEntries_perm List.perm_middle, weightOfEntries]
  exact Nat.le_add_right _ _

theorem weight_lt_of_inner {location : Location} {depth : Nat} {tree : FileTree} {inner : Frame}
    (h : (lookAt options isLocked location depth tree).2 = some inner)
    {entry : String × FileTree} (hEntry : entry ∈ inner.pending) :
    weight entry.2 < weight tree := by
  have hLess := weight_lookAt_lt options isLocked location depth tree
  rw [h] at hLess
  have hBelow := weight_le_of_mem hEntry
  simp only [weightOfStack, Option.toList_some] at hLess
  omega

/-- What is visited at an entry and below it.  `scopes` are the rules in force, the closest
first. -/
def visits (options : Options) (isLocked : Location → Bool) (scopes : List Scope)
    (location : Location) (depth : Nat) (tree : FileTree) : List Visit :=
  if admits options scopes location tree.isDirectory then
    (lookAt options isLocked location depth tree).1 ::
      match hInner : (lookAt options isLocked location depth tree).2 with
      | none => []
      | some inner =>
        inner.pending.attach.flatMap fun entry =>
          visits options isLocked (inner.scope :: scopes) (inner.location ++ [entry.1.1])
            inner.depth entry.1.2
  else []
termination_by weight tree
decreasing_by exact weight_lt_of_inner hInner entry.2

/-- What is visited in a frame.  `scopes` are the rules of the frames below it. -/
def visitsIn (options : Options) (isLocked : Location → Bool) (scopes : List Scope)
    (frame : Frame) : List Visit :=
  frame.pending.flatMap fun entry =>
    visits options isLocked (frame.scope :: scopes) (frame.location ++ [entry.1]) frame.depth
      entry.2

theorem visits_eq (scopes : List Scope) (location : Location) (depth : Nat) (tree : FileTree) :
    visits options isLocked scopes location depth tree =
      if admits options scopes location tree.isDirectory then
        (lookAt options isLocked location depth tree).1 ::
          (lookAt options isLocked location depth tree).2.toList.flatMap
            (visitsIn options isLocked scopes)
      else [] := by
  rw [visits]
  split
  · split
    · rename_i hInner
      rw [hInner]
      rfl
    · rename_i inner hInner
      have hAttach := List.flatMap_map Subtype.val
        (fun entry => visits options isLocked (inner.scope :: scopes)
          (inner.location ++ [entry.1]) inner.depth entry.2) inner.pending.attach
      rw [List.attach_map_subtype_val] at hAttach
      rw [hInner, Option.toList_some, List.flatMap_singleton, visitsIn, hAttach]
  · rfl

theorem visits_file (scopes : List Scope) (location : Location) (depth : Nat)
    (contents : Contents) :
    visits options isLocked scopes location depth (.file contents) =
      if admits options scopes location false then [.entry location depth false] else [] := by
  rw [visits_eq]
  rfl

theorem turn_nil {frame : Frame} (h : frame.pending = []) (below : List Frame) :
    turn options isLocked frame below = (none, below) := by
  simp only [turn, h]

theorem turn_cons (options : Options) (isLocked : Location → Bool) {frame : Frame}
    {name : String} {child : FileTree} {rest : List (String × FileTree)}
    (h : frame.pending = (name, child) :: rest) (below : List Frame) :
    turn options isLocked frame below =
      if admits options (frame.scope :: below.map Frame.scope) (frame.location ++ [name])
          child.isDirectory then
        (some (lookAt options isLocked (frame.location ++ [name]) frame.depth child).1,
          (lookAt options isLocked (frame.location ++ [name]) frame.depth child).2.toList ++
            { frame with pending := rest } :: below)
      else (none, { frame with pending := rest } :: below) := by
  simp only [turn, h]
  rfl

theorem run_cons_eq (frame : Frame) (below : List Frame) :
    run options isLocked (frame :: below) =
      (turn options isLocked frame below).1.toList ++
        run options isLocked (turn options isLocked frame below).2 := by
  rw [run]

theorem run_cons (frame : Frame) (below : List Frame) :
    run options isLocked (frame :: below) =
      visitsIn options isLocked (below.map Frame.scope) frame ++ run options isLocked below := by
  -- The induction is on the turns that are left: a turn may put a frame on top of the others.
  induction hTurns : weightOfStack (frame :: below) using Nat.strongRecOn
    generalizing frame below with
  | ind turns ih =>
      subst hTurns
      have hLess := weight_turn_lt options isLocked frame below
      rw [run_cons_eq]
      cases hPending : frame.pending with
      | nil =>
          rw [turn_nil hPending, visitsIn, hPending]
          rfl
      | cons entry rest =>
          obtain ⟨name, child⟩ := entry
          have hTurn := turn_cons options isLocked hPending below
          rw [visitsIn, hPending, List.flatMap_cons, visits_eq]
          cases hAdmits : admits options (frame.scope :: below.map Frame.scope)
              (frame.location ++ [name]) child.isDirectory with
          | false =>
              rw [hAdmits, if_neg (by simp)] at hTurn
              rw [hTurn] at hLess ⊢
              rw [ih _ hLess _ _ rfl]
              rfl
          | true =>
              rw [hAdmits, if_pos rfl] at hTurn
              cases hInner :
                  (lookAt options isLocked (frame.location ++ [name]) frame.depth child).2 with
              | none =>
                  rw [hInner, Option.toList_none, List.nil_append] at hTurn
                  rw [hTurn] at hLess ⊢
                  rw [ih _ hLess _ _ rfl]
                  rfl
              | some inner =>
                  rw [hInner, Option.toList_some, List.singleton_append] at hTurn
                  rw [hTurn] at hLess ⊢
                  have hRest : weightOfStack ({ frame with pending := rest } :: below) <
                      weightOfStack (frame :: below) :=
                    Nat.lt_of_le_of_lt (Nat.le_add_left _ _) hLess
                  rw [ih _ hLess _ _ rfl, ih _ hRest _ _ rfl]
                  simp [visitsIn]

end Walk

namespace Volume

/-- A walk visits what is below the entries of its root, one by one. -/
theorem walk_eq {volume : Volume} {options : Walk.Options} {root : Location} {tree : FileTree}
    {scope : Walk.Scope} (hFind : volume.find? root = some tree)
    (hEnter : Walk.enter options volume.isLocked root tree.entries = .ok scope) :
    volume.walk options root =
      .ok (Walk.visitsIn options volume.isLocked []
        ⟨root, 1, scope, Walk.inOrder tree.entries⟩) := by
  have hFrame : Walk.Frame.enter options volume.isLocked root 1 tree.entries =
      .ok ⟨root, 1, scope, Walk.inOrder tree.entries⟩ := by
    rw [Walk.Frame.enter, hEnter]
    rfl
  rw [walk, hFind]
  dsimp only
  rw [hFrame]
  dsimp only
  rw [Walk.run_cons, Walk.run, List.append_nil]
  rfl

end Volume

end YamlIndex
