import YamlIndex.Proofs.Text.OctetOrder
import YamlIndex.Proofs.Walk.Visits

/-!
# The order of a walk

A walk is in pre-order, and this is an order of locations by themselves: the entries of a directory
are sorted by name, two of them have nothing but their names to differ in, and names are in the
order of their octets.

## Main results

* `nodup_of_precedes`: what is in pre-order has nothing twice.
* `lookAt_of_mem_visits`: whatever is visited stands where it is said to.
* `pairwise_visits`, `pairwise_walk`: what is visited comes in pre-order.
-/

namespace YamlIndex

namespace Location

/-- The octets of the text of a location. -/
def octets (location : Location) : List UInt8 :=
  Glob.encode location.text.toList

/-- Whether a location comes before another one in pre-order: it is above the other one, or they go
on from one directory with different entries, its own with the smaller path octet by octet. -/
def Precedes (location other : Location) : Prop :=
  (∃ name rest, other = location ++ name :: rest) ∨
    ∃ directory name rest name' rest', location = directory ++ name :: rest ∧
      other = directory ++ name' :: rest' ∧
        octets (directory ++ [name]) < octets (directory ++ [name'])

theorem not_precedes_self (location : Location) : ¬location.Precedes location := by
  rintro (⟨name, rest, h⟩ | ⟨directory, name, rest, name', rest', hLocation, hOther, hLess⟩)
  · exact absurd (List.self_eq_append_right.mp h) (by simp)
  · rw [hLocation] at hOther
    have hSame := (List.cons.inj (List.append_cancel_left hOther)).1
    rw [hSame] at hLess
    exact List.lt_irrefl _ hLess

theorem nodup_of_precedes {locations : List Location} (h : locations.Pairwise Precedes) :
    locations.Nodup := by
  refine h.imp fun {location other} hPrecedes => ?_
  rintro rfl
  exact not_precedes_self location hPrecedes

theorem octets_concat (location : Location) (name : String) :
    octets (location ++ [name]) = octets location ++ Glob.encode ('/' :: name.toList) := by
  have hText : text (location ++ [name]) = text location ++ ("/" ++ name) := by
    simp [text]
  have hName : ("/" ++ name).toList = '/' :: name.toList := by simp
  rw [octets, octets, hText, String.toList_append, Glob.encode_append, hName]

/-- The paths of two entries of a directory are in the order of their names. -/
theorem octets_lt {name other : String} (h : name < other) (location : Location) :
    octets (location ++ [name]) < octets (location ++ [other]) := by
  rw [octets_concat, octets_concat]
  refine List.append_left_lt (Glob.encode_lt_encode ?_)
  exact List.cons_lt_cons_iff.mpr (.inr ⟨rfl, String.lt_iff.mp h⟩)

theorem precedes_of_name_lt {directory location other : Location} {name name' : String}
    (h : name < name') (hLocation : directory ++ [name] <+: location)
    (hOther : directory ++ [name'] <+: other) : location.Precedes other := by
  obtain ⟨rest, rfl⟩ := hLocation
  obtain ⟨rest', rfl⟩ := hOther
  exact .inr ⟨directory, name, rest, name', rest', List.append_assoc .., List.append_assoc ..,
    octets_lt h directory⟩

end Location

namespace Walk

variable {options : Options} {isLocked : Location → Bool}

/-- The location of a visit. -/
def Visit.location : Visit → Location
  | entry location _ _ => location
  | unreadable location _ => location

/-- One visit comes before another one in pre-order. -/
def Visit.Precedes (visit other : Visit) : Prop :=
  visit.location.Precedes other.location

theorem location_lookAt (location : Location) (depth : Nat) (tree : FileTree) :
    (lookAt options isLocked location depth tree).1.location = location := by
  cases tree with
  | file contents => rfl
  | directory entries =>
      rw [lookAt]
      split
      · split <;> rfl
      · rfl

theorem pairwise_inOrder {tree : FileTree} (h : tree.IsWellFormed) :
    (inOrder tree.entries).Pairwise fun entry other => entry.1 < other.1 := by
  have hSorted : (inOrder tree.entries).Pairwise fun entry other => entry.1 ≤ other.1 := by
    have hMerge : (inOrder tree.entries).Pairwise fun entry other =>
        decide (entry.1 ≤ other.1) = true := by
      refine List.pairwise_mergeSort (fun a b c hab hbc => ?_) (fun a b => ?_) tree.entries
      · exact decide_eq_true (String.le_trans (of_decide_eq_true hab) (of_decide_eq_true hbc))
      · rw [Bool.or_eq_true, decide_eq_true_eq, decide_eq_true_eq]
        exact String.le_total a.1 b.1
    exact hMerge.imp of_decide_eq_true
  have hDistinct : (inOrder tree.entries).Pairwise fun entry other => entry.1 ≠ other.1 := by
    have hPerm := (List.mergeSort_perm tree.entries fun a b => decide (a.1 ≤ b.1)).map Prod.fst
    exact List.pairwise_map.mp (hPerm.nodup_iff.mpr h.nodup)
  exact (hSorted.and hDistinct).imp fun hBoth => Std.lt_of_le_of_ne hBoth.1 hBoth.2

/-- An entry is left out, visited by itself, or visited before its own entries in their order. -/
theorem visits_cases (scopes : List Scope) (location : Location) (depth : Nat) (tree : FileTree) :
    visits options isLocked scopes location depth tree = [] ∨
      visits options isLocked scopes location depth tree =
        [(lookAt options isLocked location depth tree).1] ∨
      ∃ scope, visits options isLocked scopes location depth tree =
        (lookAt options isLocked location depth tree).1 ::
          (inOrder tree.entries).flatMap fun entry =>
            visits options isLocked (scope :: scopes) (location ++ [entry.1]) (depth + 1)
              entry.2 := by
  rw [visits_eq]
  split
  · refine .inr ?_
    cases hInner : (lookAt options isLocked location depth tree).2 with
    | none => exact .inl rfl
    | some inner =>
        obtain ⟨entries, rfl, -, hEnter⟩ := lookAt_inner.mp hInner
        obtain ⟨scope, -, rfl⟩ := enter_eq_ok hEnter
        exact .inr ⟨scope, by rw [Option.toList_some, List.flatMap_singleton]; rfl⟩
  · exact .inl rfl

/-- Whatever is visited at an entry and below it stands there. -/
theorem lookAt_of_mem_visits {tree : FileTree} (hTree : tree.IsWellFormed)
    {scopes : List Scope} {location : Location} {depth : Nat} {visit : Visit}
    (h : visit ∈ visits options isLocked scopes location depth tree) :
    ∃ rest below, tree.find? rest = some below ∧
      visit = (lookAt options isLocked (location ++ rest) (depth + rest.length) below).1 := by
  induction hTree using FileTree.IsWellFormed.induction
    generalizing scopes location depth with
  | step tree hTree ih =>
      have hSelf : ∃ rest below, tree.find? rest = some below ∧
          (lookAt options isLocked location depth tree).1 =
            (lookAt options isLocked (location ++ rest) (depth + rest.length) below).1 :=
        ⟨[], tree, rfl, by rw [List.append_nil]; rfl⟩
      rcases visits_cases scopes location depth tree with hNone | hOne | ⟨scope, hAll⟩
      · rw [hNone] at h
        exact absurd h (by simp)
      · rw [hOne, List.mem_singleton] at h
        rwa [h]
      · rw [hAll, List.mem_cons, List.mem_flatMap] at h
        rcases h with rfl | ⟨entry, hEntry, hVisit⟩
        · exact hSelf
        · have hEntry := List.mem_mergeSort.mp hEntry
          obtain ⟨rest, below, hFound, rfl⟩ := ih entry hEntry hVisit
          refine ⟨entry.1 :: rest, below, ?_, ?_⟩
          · rw [FileTree.find?_cons, hTree.lookup_eq_some_iff.mpr hEntry]
            exact hFound
          · rw [List.append_assoc, List.length_cons, Nat.add_assoc, Nat.add_comm 1]
            rfl

theorem prefix_of_mem_visits {tree : FileTree} (hTree : tree.IsWellFormed)
    {scopes : List Scope} {location : Location} {depth : Nat} {visit : Visit}
    (h : visit ∈ visits options isLocked scopes location depth tree) :
    location <+: visit.location := by
  obtain ⟨rest, below, -, rfl⟩ := lookAt_of_mem_visits hTree h
  rw [location_lookAt]
  exact List.prefix_append location rest

/-- The visits of the entries of a directory, sorted by name, are in pre-order if each has them so.
-/
theorem pairwise_flatMap_inOrder {tree : FileTree} (hTree : tree.IsWellFormed)
    (location : Location) {visitsOf : String × FileTree → List Visit}
    (hBelow : ∀ entry ∈ tree.entries, ∀ visit ∈ visitsOf entry,
      location ++ [entry.1] <+: visit.location)
    (hOrder : ∀ entry ∈ tree.entries, (visitsOf entry).Pairwise Visit.Precedes) :
    ((inOrder tree.entries).flatMap visitsOf).Pairwise Visit.Precedes := by
  refine List.pairwise_flatMap.mpr
    ⟨fun entry hEntry => hOrder entry (List.mem_mergeSort.mp hEntry), ?_⟩
  refine (pairwise_inOrder hTree).imp_of_mem fun {entry other} hEntry hOther hLess => ?_
  intro visit hVisit next hNext
  exact Location.precedes_of_name_lt hLess
    (hBelow entry (List.mem_mergeSort.mp hEntry) visit hVisit)
    (hBelow other (List.mem_mergeSort.mp hOther) next hNext)

/-- What is visited at an entry and below it comes in pre-order. -/
theorem pairwise_visits {tree : FileTree} (hTree : tree.IsWellFormed) (scopes : List Scope)
    (location : Location) (depth : Nat) :
    (visits options isLocked scopes location depth tree).Pairwise Visit.Precedes := by
  induction hTree using FileTree.IsWellFormed.induction
    generalizing scopes location depth with
  | step tree hTree ih =>
      rcases visits_cases scopes location depth tree with hNone | hOne | ⟨scope, hAll⟩
      · rw [hNone]
        exact .nil
      · rw [hOne]
        exact List.pairwise_singleton _ _
      · have hBelow (entry : String × FileTree) (hEntry : entry ∈ tree.entries) (visit : Visit)
            (hVisit : visit ∈ visits options isLocked (scope :: scopes)
              (location ++ [entry.1]) (depth + 1) entry.2) :=
          prefix_of_mem_visits (hTree.of_mem hEntry) hVisit
        rw [hAll, List.pairwise_cons]
        constructor
        · intro visit hVisit
          obtain ⟨entry, hEntry, hVisit⟩ := List.mem_flatMap.mp hVisit
          obtain ⟨rest, hRest⟩ := hBelow entry (List.mem_mergeSort.mp hEntry) visit hVisit
          refine .inl ⟨entry.1, rest, ?_⟩
          rw [location_lookAt, ← hRest, List.append_assoc]
          rfl
        · exact pairwise_flatMap_inOrder hTree location hBelow
            fun entry hEntry => ih entry hEntry _ _ _

end Walk

namespace Volume

variable {volume : Volume} {options : Walk.Options} {root : Location}

/-- A walk is in pre-order. -/
theorem pairwise_walk {tree : FileTree} (hTree : volume.tree.IsWellFormed)
    (hFind : volume.find? root = some tree) (hOpens : volume.Opens options root)
    {visits : List Walk.Visit} (hWalk : volume.walk options root = .ok visits) :
    visits.Pairwise Walk.Visit.Precedes := by
  have hBelow : tree.IsWellFormed := (hTree.of_find? hFind).1
  rw [walk_of_opens hFind hOpens, Except.ok.injEq] at hWalk
  rw [← hWalk]
  refine Walk.pairwise_flatMap_inOrder hBelow root (fun entry hEntry visit hVisit => ?_)
    fun entry hEntry => Walk.pairwise_visits (hBelow.of_mem hEntry) _ _ _
  exact Walk.prefix_of_mem_visits (hBelow.of_mem hEntry) hVisit

end Volume

end YamlIndex
