import Mathlib.Data.List.Forall2
import Mathlib.Data.List.Perm.Subperm
import YamlIndex.Proofs.Matching
import YamlIndex.Proofs.Outline

/-!
# How many claims succeed

An outline and lines that have nothing to do with each other are tied all the same, and where the
search has got to then depends on all keys read so far.  How many lines of one key are tied does
not.  A claim looks through all free entries before it fails, and a claim that succeeds takes out
just one, which ends in the key of the line.  So the number of free entries of a key, its *supply*,
goes down by one with each line of the key until it is used up, and no other line changes it.

Nothing is lost on the way: what has been tied and what is free are together the entries that end in
a key, each as often as the outline has it.

## Main results

* `Association.exists_chosen`: the lines that are tied, in their order, and no entry lost.
* `Association.tiedTo_foldl`: of the lines of a key the first ones are tied, up to its supply.
* `associate_is_greedy`: the claims make a matching that leaves out no line it could tie.
-/

namespace YamlIndex

theorem OutlineEntry.key?_eq_some_iff {entry : OutlineEntry} {key : String} :
    entry.key? = some key ↔ entry.path.getLast? = some (.key key) := by
  rw [OutlineEntry.key?, Option.bind_eq_some_iff]
  constructor
  · rintro ⟨segment, hLast, hKey⟩
    cases segment with
    | key name => rwa [← Option.some.inj hKey]
    | index position => exact absurd hKey (by simp [Segment.key?])
  · exact fun hLast => ⟨_, hLast, rfl⟩

/-! ## The supply of a key -/

namespace Unclaimed

/-- Whether each free entry ends in the key in front of it. -/
def IsKeyed (free : Unclaimed) : Prop :=
  ∀ candidate ∈ free.toList, candidate.2.key? = some candidate.1

/-- How many free entries end in a key. -/
def supply (free : Unclaimed) (key : String) : Nat :=
  free.toList.countP fun candidate => candidate.1 = key

theorem isKeyed_ofOutline (outline : List OutlineEntry) : (ofOutline outline).IsKeyed :=
  fun _ hCandidate => key?_of_mem_candidates hCandidate

theorem supply_ofOutline (outline : List OutlineEntry) (key : String) :
    (ofOutline outline).supply key =
      outline.countP fun entry => entry.key? = some key := by
  have hKeys := congrArg (List.countP (· = key)) (candidates_map_fst outline)
  rw [List.countP_map, List.countP_filterMap] at hKeys
  refine hKeys.trans (List.countP_congr fun entry _ => ?_)
  cases entry.key? <;> simp

section Claim

variable {free rest : Unclaimed} {key : String} {entry : OutlineEntry}

theorem IsKeyed.key?_of_claim? (h : free.IsKeyed) (hClaim : free.claim? key = some (entry, rest)) :
    entry.key? = some key :=
  h (key, entry) ((claim?_perm hClaim).mem_iff.mpr List.mem_cons_self)

theorem IsKeyed.rest_of_claim? (h : free.IsKeyed) (hClaim : free.claim? key = some (entry, rest)) :
    rest.IsKeyed :=
  fun candidate hCandidate =>
    h candidate ((claim?_perm hClaim).mem_iff.mpr (List.mem_cons_of_mem _ hCandidate))

/-- A claim takes one off the supply of its key, and leaves that of all others. -/
theorem supply_of_claim? (hClaim : free.claim? key = some (entry, rest)) (other : String) :
    free.supply other = rest.supply other + if key = other then 1 else 0 := by
  rw [supply, (claim?_perm hClaim).countP_eq, List.countP_cons, supply]
  simp

theorem claim?_eq_none_iff_supply : free.claim? key = none ↔ free.supply key = 0 := by
  rw [claim?_eq_none_iff, supply, List.countP_eq_zero]
  simp

end Claim

end Unclaimed

/-! ## Lines of a key -/

/-- The numbers of those lines that carry a key. -/
def carriers (key : String) (lines : List (String × Nat)) : List Nat :=
  (lines.filter fun line => (Line.classify line.1).key? = some key).map Prod.snd

/-- The numbers of the lines of a document that carry a key, counted from one. -/
def linesCarrying (key : String) (lines : List String) : List Nat :=
  carriers key (lines.zipIdx 1)

theorem mem_linesCarrying {key : String} {lines : List String} {number : Nat} :
    number ∈ linesCarrying key lines ↔
      1 ≤ number ∧ ∃ raw, lines[number - 1]? = some raw ∧ (Line.classify raw).key? = some key := by
  simp only [linesCarrying, carriers, List.mem_map, List.mem_filter, decide_eq_true_eq]
  constructor
  · rintro ⟨⟨raw, number⟩, ⟨hLine, hKey⟩, rfl⟩
    obtain ⟨hFirst, hAt⟩ := List.mk_mem_zipIdx_iff_le_and_getElem?_sub.mp hLine
    exact ⟨hFirst, raw, hAt, hKey⟩
  · rintro ⟨hFirst, raw, hAt, hKey⟩
    exact ⟨(raw, number), ⟨List.mk_mem_zipIdx_iff_le_and_getElem?_sub.mpr ⟨hFirst, hAt⟩, hKey⟩, rfl⟩

theorem pairwise_linesCarrying (key : String) (lines : List String) :
    (linesCarrying key lines).Pairwise (· < ·) :=
  List.pairwise_map.mpr ((Node.pairwise_snd_zipIdx lines 1).filter _)

theorem of_mem_keyedLines {lines : List String} {keyed : KeyedLine} (h : keyed ∈ keyedLines lines) :
    1 ≤ keyed.2.2 ∧ lines[keyed.2.2 - 1]? = some keyed.2.1 ∧
      (Line.classify keyed.2.1).key? = some keyed.1 := by
  obtain ⟨line, hLine, hKeyed⟩ := List.mem_filterMap.mp h
  obtain ⟨key, hKey, rfl⟩ := Option.map_eq_some_iff.mp hKeyed
  obtain ⟨hFirst, hAt⟩ := List.mk_mem_zipIdx_iff_le_and_getElem?_sub.mp hLine
  exact ⟨hFirst, hAt, hKey⟩

theorem pairwise_keyedLines (lines : List String) :
    (keyedLines lines).Pairwise fun keyed later => keyed.2.2 < later.2.2 := by
  refine (Node.pairwise_snd_zipIdx lines 1).filterMap keyedLine? ?_
  intro line later hLess keyed hKeyed other hOther
  obtain ⟨key, -, rfl⟩ := Option.map_eq_some_iff.mp hKeyed
  obtain ⟨key', -, rfl⟩ := Option.map_eq_some_iff.mp hOther
  exact hLess

/-- Whether what is tied to a line has its number, its text, and an entry that ends in its key. -/
structure Tied.IsFor (tied : Tied) (keyed : KeyedLine) : Prop where
  line : tied.line = keyed.2.2
  text : tied.text = Text.trimmed keyed.2.1
  key : tied.entry.key? = some keyed.1

/-- Whether something is tied to a line of the document that carries the key its entry ends in. -/
def Tied.IsOn (tied : Tied) (lines : List String) : Prop :=
  ∃ raw key, 1 ≤ tied.line ∧ lines[tied.line - 1]? = some raw ∧ tied.text = Text.trimmed raw ∧
    (Line.classify raw).key? = some key ∧ tied.entry.path.getLast? = some (.key key)

theorem Tied.IsOn.mem_linesCarrying_iff {tied : Tied} {lines : List String} (h : tied.IsOn lines)
    (key : String) : tied.line ∈ linesCarrying key lines ↔ tied.entry.key? = some key := by
  obtain ⟨raw, own, hFirst, hAt, -, hOwn, hLast⟩ := h
  rw [mem_linesCarrying, OutlineEntry.key?_eq_some_iff.mpr hLast, Option.some.injEq]
  constructor
  · rintro ⟨-, other, hOther, hKey⟩
    rw [hAt, Option.some.injEq] at hOther
    rw [← hOther, hOwn] at hKey
    exact Option.some.inj hKey
  · rintro rfl
    exact ⟨hFirst, raw, hAt, hOwn⟩

/-! ## The run of claims -/

namespace Association

/-- The ways a line is read: it carries no key, or no free entry has its key, and nothing changes;
or its key is claimed. -/
theorem read_cases (state : State) (line : String × Nat) :
    state.read line = state ∧ (keyedLine? line = none ∨
        ∃ key, keyedLine? line = some (key, line) ∧ state.free.claim? key = none) ∨
      ∃ key entry free, keyedLine? line = some (key, line) ∧
        state.free.claim? key = some (entry, free) ∧
          state.read line = ⟨free, ⟨line.2, Text.trimmed line.1, entry⟩ :: state.tied⟩ := by
  rw [State.read, keyedLine?]
  cases (Line.classify line.1).key? with
  | none => exact .inl ⟨rfl, .inl rfl⟩
  | some key =>
      dsimp only
      cases hClaim : state.free.claim? key with
      | none => exact .inl ⟨rfl, .inr ⟨key, rfl, hClaim⟩⟩
      | some claimed => exact .inr ⟨key, claimed.1, claimed.2, rfl, hClaim, rfl⟩

theorem keyedLine?_eq_some {line : String × Nat} {key : String}
    (h : keyedLine? line = some (key, line)) : (Line.classify line.1).key? = some key := by
  obtain ⟨own, hOwn, hEq⟩ := Option.map_eq_some_iff.mp h
  rwa [← (Prod.mk.inj hEq).1]

/-- Reading lines ties some of those that carry a key, in their order, each to an entry that ends in
its key.  The entries that are tied now and those still free are the ones that were free before. -/
theorem exists_chosen (rest : List (String × Nat)) {state : State} (h : state.free.IsKeyed) :
    ∃ chosen added, chosen.Sublist (rest.filterMap keyedLine?) ∧
      (rest.foldl State.read state).tied = added.reverse ++ state.tied ∧
      List.Forall₂ Tied.IsFor added chosen ∧
      (added.map Tied.entry ++ (rest.foldl State.read state).free.toList.map Prod.snd).Perm
        (state.free.toList.map Prod.snd) := by
  induction rest generalizing state with
  | nil => exact ⟨[], [], List.Sublist.refl _, rfl, .nil, List.Perm.refl _⟩
  | cons line rest ih =>
      rw [List.foldl_cons]
      rcases read_cases state line with ⟨hSame, hKey⟩ | ⟨key, entry, free, hKey, hClaim, hRead⟩
      · obtain ⟨chosen, added, hChosen, hTied, hFor, hPerm⟩ := ih h
        rw [hSame]
        refine ⟨chosen, added, hChosen.trans ?_, hTied, hFor, hPerm⟩
        exact (List.sublist_cons_self line rest).filterMap keyedLine?
      · obtain ⟨chosen, added, hChosen, hTied, hFor, hPerm⟩ :=
          ih (show (state.read line).free.IsKeyed by rw [hRead]; exact h.rest_of_claim? hClaim)
        refine ⟨(key, line) :: chosen, ⟨line.2, Text.trimmed line.1, entry⟩ :: added,
          ?_, ?_, ?_, ?_⟩
        · rw [List.filterMap_cons_some hKey]
          exact hChosen.cons_cons _
        · rw [hTied, hRead, List.reverse_cons, List.append_assoc, List.singleton_append]
        · exact .cons ⟨rfl, rfl, h.key?_of_claim? hClaim⟩ hFor
        · rw [hRead] at hPerm ⊢
          have hFree := (Unclaimed.claim?_perm hClaim).map Prod.snd
          rw [List.map_cons] at hFree
          exact (hPerm.cons entry).trans hFree.symm

/-- The numbers of the lines that are tied to entries of a key, in the order of the lines. -/
def State.tiedTo (state : State) (key : String) : List Nat :=
  (state.tied.reverse.filter fun tied => tied.entry.key? = some key).map Tied.line

theorem tiedTo_cons (free : Unclaimed) (tied : Tied) (earlier : List Tied) (key : String) :
    State.tiedTo ⟨free, tied :: earlier⟩ key =
      State.tiedTo ⟨free, earlier⟩ key ++
        if tied.entry.key? = some key then [tied.line] else [] := by
  rw [State.tiedTo, List.reverse_cons, List.filter_append, List.map_append, State.tiedTo]
  by_cases hKey : tied.entry.key? = some key <;> simp [hKey]

/-- Of the lines of a key the first ones are tied, as many as there are free entries of it. -/
theorem tiedTo_foldl (key : String) (rest : List (String × Nat)) {state : State}
    (h : state.free.IsKeyed) :
    (rest.foldl State.read state).tiedTo key =
      state.tiedTo key ++ (carriers key rest).take (state.free.supply key) := by
  induction rest generalizing state with
  | nil => simp [carriers]
  | cons line rest ih =>
      rw [List.foldl_cons, carriers, List.filter_cons]
      rcases read_cases state line with ⟨hSame, hNone⟩ | ⟨own, entry, free, hOwn, hClaim, hRead⟩
      · rw [hSame, ih h]
        split
        · rename_i hKey
          -- The line carries the key and ties nothing, so the supply is used up.
          have hUsedUp : state.free.supply key = 0 := by
            rcases hNone with hKeyless | ⟨own, hOwn, hClaim⟩
            · simp [keyedLine?, of_decide_eq_true hKey] at hKeyless
            · have hSame := keyedLine?_eq_some hOwn
              rw [of_decide_eq_true hKey, Option.some.injEq] at hSame
              exact hSame ▸ Unclaimed.claim?_eq_none_iff_supply.mp hClaim
          rw [hUsedUp, List.take_zero, List.take_zero]
        · rfl
      · have hEntry := h.key?_of_claim? hClaim
        rw [hRead, ih (h.rest_of_claim? hClaim), tiedTo_cons, hEntry,
          Unclaimed.supply_of_claim? hClaim key, keyedLine?_eq_some hOwn]
        by_cases hKey : own = key
        · simp [hKey, State.tiedTo, carriers]
        · simp [hKey, State.tiedTo, carriers]

end Association

/-! ## The matching -/

section Matching

variable {outline : List OutlineEntry} {lines : List String}

theorem exists_chosen_associate (outline : List OutlineEntry) (lines : List String) :
    ∃ chosen, chosen.Sublist (keyedLines lines) ∧
      List.Forall₂ Tied.IsFor (associate outline lines) chosen ∧
      ((associate outline lines).map Tied.entry).Subperm outline := by
  have hStart : (Association.State.mk (.ofOutline outline) []).free.IsKeyed :=
    Unclaimed.isKeyed_ofOutline outline
  obtain ⟨chosen, added, hChosen, hTied, hFor, hPerm⟩ :=
    Association.exists_chosen (lines.zipIdx 1) hStart
  have hAdded : associate outline lines = added := by
    rw [associate, hTied, List.append_nil, List.reverse_reverse]
  refine ⟨chosen, hChosen, hAdded ▸ hFor, ?_⟩
  have hCandidates : ((candidates outline).map Prod.snd).Sublist outline := by
    rw [candidates_map_snd]
    exact List.filter_sublist
  rw [hAdded]
  exact ((List.sublist_append_left _ _).subperm.trans hPerm.subperm).trans hCandidates.subperm

theorem isOn_of_mem_associate {tied : Tied} (h : tied ∈ associate outline lines) :
    tied.IsOn lines := by
  obtain ⟨chosen, hChosen, hFor, -⟩ := exists_chosen_associate outline lines
  obtain ⟨i, hi, rfl⟩ := List.mem_iff_getElem.mp h
  have hBound : i < chosen.length := hFor.length_eq ▸ hi
  have hIsFor : (associate outline lines)[i].IsFor chosen[i] := hFor.get hi hBound
  obtain ⟨hFirst, hAt, hKey⟩ := of_mem_keyedLines (hChosen.subset (List.getElem_mem hBound))
  rw [← hIsFor.line] at hFirst hAt
  exact ⟨_, _, hFirst, hAt, hIsFor.text, hKey, OutlineEntry.key?_eq_some_iff.mp hIsFor.key⟩

theorem pairwise_associate (outline : List OutlineEntry) (lines : List String) :
    (associate outline lines).Pairwise fun tied later => tied.line < later.line := by
  obtain ⟨chosen, hChosen, hFor, -⟩ := exists_chosen_associate outline lines
  have hNumbers : (associate outline lines).map Tied.line = chosen.map fun keyed => keyed.2.2 := by
    rw [← List.forall₂_eq_eq_eq, List.forall₂_map_left_iff, List.forall₂_map_right_iff]
    exact hFor.imp fun _ _ hIsFor => hIsFor.line
  rw [← List.pairwise_map (f := Tied.line) (R := (· < ·)), hNumbers, List.pairwise_map]
  exact (pairwise_keyedLines lines).sublist hChosen

theorem tiedTo_associate (key : String) (outline : List OutlineEntry) (lines : List String) :
    ((associate outline lines).filter fun tied => tied.entry.key? = some key).map Tied.line =
      (linesCarrying key lines).take (outline.countP fun entry => entry.key? = some key) := by
  have hStart : (Association.State.mk (.ofOutline outline) []).free.IsKeyed :=
    Unclaimed.isKeyed_ofOutline outline
  have hTied := Association.tiedTo_foldl key (lines.zipIdx 1) hStart
  rw [Unclaimed.supply_ofOutline] at hTied
  exact hTied

/-- What is not among the first elements of an ascending list stands behind all of them. -/
theorem above_of_notMem_take {numbers : List Nat} (hOrder : numbers.Pairwise (· < ·))
    {count number : Nat} (hIn : number ∈ numbers) (hOut : number ∉ numbers.take count) :
    count < numbers.length ∧ ∀ earlier ∈ numbers.take count, earlier < number := by
  rw [← List.take_append_drop count numbers] at hOrder hIn
  have hBehind := (List.mem_append.mp hIn).resolve_left hOut
  refine ⟨?_, fun earlier hEarlier => (List.pairwise_append.mp hOrder).2.2 _ hEarlier _ hBehind⟩
  have hRest := List.length_pos_of_mem hBehind
  rw [List.length_drop] at hRest
  omega

/-- When a line with a key is left out, the lines above it have taken all entries of its key. -/
theorem taken_of_left_out {key : String} {number : Nat} (hLine : number ∈ linesCarrying key lines)
    (hOut : number ∉ (associate outline lines).map Tied.line) :
    (((associate outline lines).filter fun tied =>
        tied.line < number ∧ tied.entry.key? = some key).map Tied.entry).Perm
      (outline.filter fun entry => entry.key? = some key) := by
  have hTied := tiedTo_associate key outline lines
  have hNotFirst : number ∉
      (linesCarrying key lines).take (outline.countP fun entry => entry.key? = some key) := by
    rw [← hTied]
    exact fun hIn => hOut ((List.filter_sublist.map Tied.line).subset hIn)
  obtain ⟨hSupply, hAbove⟩ :=
    above_of_notMem_take (pairwise_linesCarrying key lines) hLine hNotFirst
  rw [← hTied] at hAbove
  have hFilter : ((associate outline lines).filter fun tied =>
      tied.line < number ∧ tied.entry.key? = some key) =
        (associate outline lines).filter fun tied => tied.entry.key? = some key := by
    refine List.filter_congr fun tied hMem => decide_eq_decide.mpr ?_
    refine and_iff_right_of_imp fun hKey => hAbove _ (List.mem_map_of_mem ?_)
    exact List.mem_filter.mpr ⟨hMem, decide_eq_true hKey⟩
  have hEntries : (((associate outline lines).filter fun tied => tied.entry.key? = some key).map
      Tied.entry).Subperm (outline.filter fun entry => entry.key? = some key) := by
    obtain ⟨-, -, -, hAll⟩ := exists_chosen_associate outline lines
    have hOwn := hAll.filter fun entry => entry.key? = some key
    rwa [List.filter_map] at hOwn
  -- They are as many as there are entries of the key.
  have hLength := congrArg List.length hTied
  rw [List.length_map, List.length_take_of_le (Nat.le_of_lt hSupply)] at hLength
  rw [hFilter]
  refine hEntries.perm_of_length_le (Nat.le_of_eq ?_)
  rw [List.length_map, hLength, List.countP_eq_length_filter]

/-- **Claims are a greedy matching.**  The lines that are tied go up; each carries the key that its
entry ends in; each has an entry of its own in the outline.  Of the lines of a key the first ones
are tied, as many as there are lines of it or entries of it, whichever are fewer.  A line of it is
left out only when the lines above it have taken all its entries. -/
theorem associate_is_greedy (outline : List OutlineEntry) (lines : List String) :
    ((associate outline lines).Pairwise fun tied later => tied.line < later.line) ∧
    (∀ tied ∈ associate outline lines, tied.IsOn lines) ∧
    (∃ place : Fin (associate outline lines).length → Fin outline.length,
      Function.Injective place ∧
        ∀ i, outline[(place i : Nat)] = (associate outline lines)[(i : Nat)].entry) ∧
    ∀ key,
      ((associate outline lines).map Tied.line).filter (· ∈ linesCarrying key lines) =
        (linesCarrying key lines).take (min (linesCarrying key lines).length
          (outline.countP fun entry => entry.path.getLast? = some (.key key))) ∧
      ∀ number ∈ linesCarrying key lines, number ∉ (associate outline lines).map Tied.line →
        (((associate outline lines).filter fun tied =>
            tied.line < number ∧ tied.entry.path.getLast? = some (.key key)).map Tied.entry).Perm
          (outline.filter fun entry => entry.path.getLast? = some (.key key)) := by
  refine ⟨pairwise_associate outline lines, fun _ => isOn_of_mem_associate, ?_, fun key => ⟨?_, ?_⟩⟩
  · obtain ⟨-, -, -, hEntries⟩ := exists_chosen_associate outline lines
    have hLength : ((associate outline lines).map Tied.entry).length =
        (associate outline lines).length := List.length_map _
    refine ⟨fun i => hEntries.idxInj (i.cast hLength.symm), ?_, fun i => ?_⟩
    · intro i j hSame
      have hCast := hEntries.idxInj_injective hSame
      rwa [Fin.ext_iff, Fin.val_cast, Fin.val_cast, ← Fin.ext_iff] at hCast
    · rw [hEntries.getElem_idxInj_eq_getElem]
      exact List.getElem_map _
  · have hOwn : ((associate outline lines).map Tied.line).filter (· ∈ linesCarrying key lines) =
        ((associate outline lines).filter fun tied =>
          tied.entry.key? = some key).map Tied.line := by
      rw [List.filter_map]
      refine congrArg _ (List.filter_congr fun tied hTied => decide_eq_decide.mpr ?_)
      exact (isOn_of_mem_associate hTied).mem_linesCarrying_iff key
    rw [hOwn, tiedTo_associate, List.take_eq_take_min, Nat.min_comm]
    simp only [OutlineEntry.key?_eq_some_iff]
  · intro number hLine hOut
    simpa only [OutlineEntry.key?_eq_some_iff] using taken_of_left_out hLine hOut

/-- The search for the first `a` starts over, and the second one finds nothing left. -/
example :
    (associate (Node.mapping [("a", .null), ("b", .null)]).outline ["b:", "a:", "a:"]).map
      Tied.line = [1, 2] := by decide +kernel

end Matching

end YamlIndex
