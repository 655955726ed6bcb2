import Mathlib.Data.Set.Card
import YamlIndex.Proofs.Session.Records

/-!
# Runs of a cache

A cache is a map with a lifetime.  What it gives back is decided by its history alone: the last
operation that touched a slot under a key was to put a value there, and less than a lifetime has
gone by since.  The number of its records counts the places that were touched by a put last, whether
their records are still alive or not.

One relation joins a cache to its history, `IsAfter`: the records that can be found are those of the
last puts.  It is a statement about records of every age, since the clock may wrap and bring a
record back to life.  An operation either leaves a place alone, and then neither side changes
(`find?_perform`), or it touches the place, and then all that was there before is of no account.

## Main results

* `isLastPut_concat_iff`: the last put of a run, by its last operation.
* `isAfter_run`: on every run the records are those of the last puts.
* `size_eq_of_distinctKeys`: the size counts the places with a record.
* `remembers_last_put`: what is found and how much is held, by the history alone.
-/

namespace YamlIndex

/-! ## The keys of a store -/

namespace Store

variable {α : Type}

/-- Whether no key of a store occurs twice. -/
def HasDistinctKeys (store : Store α) : Prop :=
  (store.records.map Prod.fst).Nodup

theorem hasDistinctKeys_empty : HasDistinctKeys ({} : Store α) :=
  List.nodup_nil

theorem HasDistinctKeys.erase {store : Store α} (h : store.HasDistinctKeys) (key : String) :
    (store.erase key).HasDistinctKeys :=
  h.sublist (List.filter_sublist.map Prod.fst)

theorem HasDistinctKeys.insert {store : Store α} (h : store.HasDistinctKeys) (key : String)
    (record : Stamped α) : (store.insert key record).HasDistinctKeys := by
  refine List.nodup_cons.mpr ⟨fun hIn => ?_, h.erase key⟩
  obtain ⟨other, hOther, hKey⟩ := List.mem_map.mp hIn
  have hKept := (List.mem_filter.mp hOther).2
  rw [hKey] at hKept
  exact absurd hKept (by simp)

/-- The keys of a store are those under which a record is found. -/
theorem mem_keys_iff {store : Store α} {key : String} :
    key ∈ store.records.map Prod.fst ↔ ∃ record, store.find? key = some record := by
  obtain ⟨records⟩ := store
  simp only [find?]
  induction records with
  | nil => simp
  | cons record records ih =>
      obtain ⟨name, value⟩ := record
      rw [List.map_cons, List.mem_cons, List.lookup_cons]
      by_cases hKey : key = name
      · simp [hKey]
      · rw [beq_eq_false_iff_ne.mpr hKey, ih]
        simp [hKey]

end Store

namespace Slot

/-- All slots. -/
def all : List Slot :=
  [lines, tree, entries .path, entries .value]

theorem mem_all (slot : Slot) : slot ∈ all := by
  rcases slot with _ | _ | _ | _ <;> decide

theorem nodup_all : all.Nodup := by
  decide

end Slot

namespace Cache

/-! ## Operations and their history -/

/-- Something that is done to a cache. -/
inductive Operation where
  | put (slot : Slot) (key : String) (value : slot.Content)
  | get (slot : Slot) (key : String)
  | erase (key : String)
  | clear
  | advance (span : Nat)

namespace Operation

/-- Whether an operation touches what is remembered in a slot under a key. -/
def Touches (slot : Slot) (key : String) : Operation → Prop
  | put other name _ => other = slot ∧ name = key
  | get _ _ => False
  | erase name => name = key
  | clear => True
  | advance _ => False

/-- The time that goes by, in milliseconds; a span too large for a word counts as the largest word.
-/
def span : Operation → Nat
  | advance span => min span Text.maxWord
  | _ => 0

end Operation

/-- The cache after an operation. -/
def perform (cache : Cache) : Operation → Cache
  | .put slot key value => cache.put slot key value
  | .get _ _ => cache
  | .erase key => cache.erase key
  | .clear => cache.clear
  | .advance span => cache.advance span

/-- The cache after a run that begins with nothing remembered. -/
def run (enabled : Bool) (lifetime : Nat) (operations : List Operation) : Cache :=
  operations.foldl perform { enabled, lifetime }

/-- The time at the end of a run, on a counter of the size of a word. -/
def elapsed (operations : List Operation) : Nat :=
  (operations.map Operation.span).sum % (Text.maxWord + 1)

/-- Of all operations of a run that touch a slot under a key the last one is to put this value, at
this time. -/
def IsLastPut (operations : List Operation) (slot : Slot) (key : String)
    (record : Stamped slot.Content) : Prop :=
  ∃ earlier later, operations = earlier ++ .put slot key record.value :: later ∧
    (∀ operation ∈ later, ¬ operation.Touches slot key) ∧ record.stamp = elapsed earlier

section History

variable {operations : List Operation} {operation : Operation} {slot : Slot} {key : String}
  {record : Stamped slot.Content}

theorem elapsed_concat (operations : List Operation) (operation : Operation) :
    elapsed (operations ++ [operation]) =
      (elapsed operations + operation.span) % (Text.maxWord + 1) := by
  simp only [elapsed, List.map_append, List.map_cons, List.map_nil, List.sum_append,
    List.sum_singleton, Nat.mod_add_mod]

/-- Time stands still in all operations but one. -/
theorem elapsed_concat_of_span (h : operation.span = 0) :
    elapsed (operations ++ [operation]) = elapsed operations := by
  rw [elapsed_concat, h, Nat.add_zero]
  exact Nat.mod_mod _ _

/-- The last put of a run is its last operation, or this one leaves the place alone. -/
theorem isLastPut_concat_iff :
    IsLastPut (operations ++ [operation]) slot key record ↔
      (operation = .put slot key record.value ∧ record.stamp = elapsed operations) ∨
        (¬ operation.Touches slot key ∧ IsLastPut operations slot key record) := by
  constructor
  · rintro ⟨earlier, later, hRun, hLater, hStamp⟩
    rcases List.eq_nil_or_concat later with rfl | ⟨later, last, rfl⟩
    · obtain ⟨rfl, hLast⟩ := List.append_inj' hRun rfl
      exact .inl ⟨List.singleton_inj.mp hLast, hStamp⟩
    · rw [List.concat_eq_append, ← List.cons_append, ← List.append_assoc] at hRun
      obtain ⟨rfl, hLast⟩ := List.append_inj' hRun rfl
      rw [List.singleton_inj.mp hLast]
      refine .inr ⟨hLater last (by simp), earlier, later, rfl, fun other hOther => ?_, hStamp⟩
      exact hLater other (by simp [hOther])
  · rintro (⟨rfl, hStamp⟩ | ⟨hAlone, earlier, later, rfl, hLater, hStamp⟩)
    · exact ⟨operations, [], rfl, by simp, hStamp⟩
    · refine ⟨earlier, later ++ [operation], by simp, fun other hOther => ?_, hStamp⟩
      rcases List.mem_append.mp hOther with hOld | hNew
      · exact hLater other hOld
      · rw [List.mem_singleton.mp hNew]
        exact hAlone

/-- An operation that leaves a place alone leaves its last put. -/
theorem isLastPut_concat_of_not_touches (h : ¬ operation.Touches slot key) :
    IsLastPut (operations ++ [operation]) slot key record ↔
      IsLastPut operations slot key record := by
  rw [isLastPut_concat_iff]
  constructor
  · rintro (⟨rfl, -⟩ | ⟨-, hLast⟩)
    · exact absurd ⟨rfl, rfl⟩ h
    · exact hLast
  · exact fun hLast => .inr ⟨h, hLast⟩

/-- Behind a put the last put is this one. -/
theorem isLastPut_concat_put {value : slot.Content} :
    IsLastPut (operations ++ [.put slot key value]) slot key record ↔
      record = ⟨value, elapsed operations⟩ := by
  rw [isLastPut_concat_iff]
  constructor
  · rintro (⟨hPut, hStamp⟩ | ⟨hAlone, -⟩)
    · obtain ⟨found, stamp⟩ := record
      cases hPut
      cases hStamp
      rfl
    · exact absurd ⟨rfl, rfl⟩ hAlone
  · rintro rfl
    exact .inl ⟨rfl, rfl⟩

/-- There is no last put where the last operation forgets. -/
theorem not_isLastPut_concat (h : operation.Touches slot key)
    (hForgets : ∀ value, operation ≠ .put slot key value) :
    ¬ IsLastPut (operations ++ [operation]) slot key record := by
  rw [isLastPut_concat_iff]
  rintro (⟨hPut, -⟩ | ⟨hAlone, -⟩)
  · exact hForgets _ hPut
  · exact hAlone h

end History

/-! ## What an operation does to one place -/

theorem keeps_iff {cache : Cache} {key : String} :
    cache.keeps key = true ↔ cache.enabled = true ∧ key ≠ "" := by
  rw [keeps, Bool.and_eq_true, Bool.not_eq_true', ← Bool.not_eq_true, String.isEmpty_iff]

theorem store_put_self (cache : Cache) (slot : Slot) (key : String) (value : slot.Content) :
    (cache.put slot key value).store slot =
      if cache.keeps key then (cache.store slot).insert key ⟨value, cache.now⟩
      else cache.store slot := by
  unfold put
  split
  · exact store_replace_self cache slot _
  · rfl

theorem store_clear (cache : Cache) (slot : Slot) : cache.clear.store slot = {} := by
  rcases slot with _ | _ | _ | _ <;> rfl

theorem store_advance (cache : Cache) (span : Nat) (slot : Slot) :
    (cache.advance span).store slot = cache.store slot := by
  rcases slot with _ | _ | _ | _ <;> rfl

/-- What is not touched is found as before. -/
theorem find?_perform (cache : Cache) {operation : Operation} {slot : Slot} {key : String}
    (h : ¬ operation.Touches slot key) :
    ((cache.perform operation).store slot).find? key = (cache.store slot).find? key := by
  cases operation with
  | put other name value =>
      by_cases hSlot : slot = other
      · exact find?_put_key cache other slot (fun hKey => h ⟨hSlot.symm, hKey.symm⟩) value
      · rw [perform, store_put_slot cache hSlot]
  | get other name => rfl
  | erase name =>
      rw [perform, store_erase, Store.find?_erase, if_neg (fun hKey => h hKey.symm)]
  | clear => exact absurd trivial h
  | advance span => rw [perform, store_advance]

theorem enabled_put (cache : Cache) (slot : Slot) (key : String) (value : slot.Content) :
    (cache.put slot key value).enabled = cache.enabled := by
  unfold put
  split
  · rcases slot with _ | _ | _ | _ <;> rfl
  · rfl

theorem enabled_perform (cache : Cache) (operation : Operation) :
    (cache.perform operation).enabled = cache.enabled := by
  cases operation with
  | put slot key value => exact enabled_put cache slot key value
  | _ => rfl

theorem lifetime_perform (cache : Cache) (operation : Operation) :
    (cache.perform operation).lifetime = cache.lifetime := by
  cases operation with
  | put slot key value => exact (clock_put cache slot key value).2
  | _ => rfl

theorem hasDistinctKeys_perform {cache : Cache}
    (h : ∀ slot, (cache.store slot).HasDistinctKeys) (operation : Operation) (slot : Slot) :
    ((cache.perform operation).store slot).HasDistinctKeys := by
  cases operation with
  | put other key value =>
      by_cases hSlot : slot = other
      · subst hSlot
        rw [perform, store_put_self]
        split
        · exact (h slot).insert key _
        · exact h slot
      · rw [perform, store_put_slot cache hSlot]
        exact h slot
  | get other key => exact h slot
  | erase key =>
      rw [perform, store_erase]
      exact (h slot).erase key
  | clear =>
      rw [perform, store_clear]
      exact Store.hasDistinctKeys_empty
  | advance span =>
      rw [perform, store_advance]
      exact h slot

/-! ## A cache and its history -/

/-- The cache has come out of the operations: its clock shows the time that went by, and what can be
found is what was put last, where anything is kept. -/
structure IsAfter (cache : Cache) (operations : List Operation) : Prop where
  now : cache.now = elapsed operations
  found : ∀ slot key record, (cache.store slot).find? key = some record ↔
    cache.keeps key = true ∧ IsLastPut operations slot key record
  distinct : ∀ slot, (cache.store slot).HasDistinctKeys

section Steps

variable {cache : Cache} {operations : List Operation}

theorem IsAfter.now_perform (h : cache.IsAfter operations) (operation : Operation) :
    (cache.perform operation).now = elapsed (operations ++ [operation]) := by
  cases operation with
  | put slot key value =>
      rw [elapsed_concat_of_span rfl, ← h.now]
      exact (clock_put cache slot key value).1
  | advance span =>
      rw [elapsed_concat, ← h.now]
      rfl
  | _ =>
      rw [elapsed_concat_of_span rfl, ← h.now]
      rfl

/-- What a put has written is found, where anything is kept. -/
theorem IsAfter.found_put (h : cache.IsAfter operations) (slot : Slot) (key : String)
    (value : slot.Content) (record : Stamped slot.Content) :
    ((cache.put slot key value).store slot).find? key = some record ↔
      cache.keeps key = true ∧ IsLastPut (operations ++ [.put slot key value]) slot key record := by
  rw [isLastPut_concat_put, store_put_self, ← h.now]
  by_cases hKeeps : cache.keeps key = true
  · rw [if_pos hKeeps, Store.find?_insert, if_pos rfl, Option.some_inj]
    exact ⟨fun hRecord => ⟨hKeeps, hRecord.symm⟩, fun hRecord => hRecord.2.symm⟩
  · rw [if_neg hKeeps]
    constructor
    · intro hFind
      exact absurd ((h.found slot key record).mp hFind).1 hKeeps
    · exact fun hBoth => absurd hBoth.1 hKeeps

/-- Each operation takes the cache along with its history. -/
theorem IsAfter.perform (h : cache.IsAfter operations) (operation : Operation) :
    (cache.perform operation).IsAfter (operations ++ [operation]) where
  now := h.now_perform operation
  distinct := hasDistinctKeys_perform h.distinct operation
  found slot key record := by
    have hKeeps : (cache.perform operation).keeps key = cache.keeps key := by
      rw [keeps, keeps, enabled_perform]
    rw [hKeeps]
    by_cases hTouches : operation.Touches slot key
    · cases operation with
      | put other name value =>
          obtain ⟨rfl, rfl⟩ := hTouches
          exact h.found_put other name value record
      | get other name => exact hTouches.elim
      | erase name =>
          have hNone : ((cache.erase name).store slot).find? key = none := by
            rw [store_erase, Store.find?_erase, if_pos hTouches.symm]
          exact iff_of_false (by simp [Cache.perform, hNone])
            fun hBoth => not_isLastPut_concat hTouches (by simp) hBoth.2
      | clear =>
          have hNone : (cache.clear.store slot).find? key = none := by
            rw [store_clear]
            rfl
          exact iff_of_false (by simp [Cache.perform, hNone])
            fun hBoth => not_isLastPut_concat hTouches (by simp) hBoth.2
      | advance span => exact hTouches.elim
    · rw [find?_perform cache hTouches, isLastPut_concat_of_not_touches hTouches]
      exact h.found slot key record

end Steps

theorem run_concat (enabled : Bool) (lifetime : Nat) (operations : List Operation)
    (operation : Operation) :
    run enabled lifetime (operations ++ [operation]) =
      (run enabled lifetime operations).perform operation :=
  List.foldl_concat ..

/-- On every run the cache is what its history makes of it. -/
theorem isAfter_run (enabled : Bool) (lifetime : Nat) (operations : List Operation) :
    (run enabled lifetime operations).IsAfter operations := by
  induction operations using List.reverseRecOn with
  | nil =>
      have hEmpty : ∀ slot, (run enabled lifetime []).store slot = {} := by
        intro slot
        rcases slot with _ | _ | _ | _ <;> rfl
      refine ⟨rfl, fun slot key record => ?_, fun slot => ?_⟩
      · rw [hEmpty]
        refine iff_of_false (by simp [Store.find?]) ?_
        rintro ⟨-, earlier, later, hRun, -⟩
        exact absurd hRun.symm (by simp)
      · rw [hEmpty]
        exact Store.hasDistinctKeys_empty
  | append_singleton operations operation ih =>
      rw [run_concat]
      exact ih.perform operation

/-- A run neither turns a cache on or off nor changes how long it remembers. -/
theorem settings_run (enabled : Bool) (lifetime : Nat) (operations : List Operation) :
    (run enabled lifetime operations).enabled = enabled ∧
      (run enabled lifetime operations).lifetime = lifetime := by
  induction operations using List.reverseRecOn with
  | nil => exact ⟨rfl, rfl⟩
  | append_singleton operations operation ih =>
      rw [run_concat, enabled_perform, lifetime_perform]
      exact ih

/-! ## Counting records -/

/-- The places of a slot with a record. -/
def placesOf (cache : Cache) (slot : Slot) : List (Slot × String) :=
  (cache.store slot).records.map fun record => (slot, record.1)

theorem length_places (cache : Cache) : (Slot.all.flatMap cache.placesOf).length = cache.size := by
  simp only [Slot.all, List.flatMap_cons, List.flatMap_nil, List.length_append, List.length_nil,
    placesOf, List.length_map]
  unfold size Store.size
  dsimp only [store]
  omega

theorem mem_places_iff {cache : Cache} {slot : Slot} {key : String} :
    (slot, key) ∈ Slot.all.flatMap cache.placesOf ↔
      ∃ record, (cache.store slot).find? key = some record := by
  rw [← Store.mem_keys_iff, List.mem_flatMap]
  constructor
  · rintro ⟨other, -, hPlace⟩
    obtain ⟨record, hRecord, hEq⟩ := List.mem_map.mp hPlace
    cases hEq
    exact List.mem_map.mpr ⟨record, hRecord, rfl⟩
  · intro hKey
    obtain ⟨record, hRecord, rfl⟩ := List.mem_map.mp hKey
    exact ⟨slot, Slot.mem_all slot, List.mem_map.mpr ⟨record, hRecord, rfl⟩⟩

theorem nodup_places {cache : Cache} (h : ∀ slot, (cache.store slot).HasDistinctKeys) :
    (Slot.all.flatMap cache.placesOf).Nodup := by
  rw [List.nodup_flatMap]
  constructor
  · intro slot _
    have hKeys : cache.placesOf slot =
        ((cache.store slot).records.map Prod.fst).map (Prod.mk slot) := by
      rw [List.map_map]
      rfl
    rw [hKeys]
    exact (h slot).map (Prod.mk_right_injective slot)
  · refine Slot.nodup_all.imp fun hOther => ?_
    intro place hPlace hSame
    obtain ⟨_, -, rfl⟩ := List.mem_map.mp hPlace
    obtain ⟨_, -, hEq⟩ := List.mem_map.mp hSame
    exact hOther (congrArg Prod.fst hEq).symm

/-- The size of a cache is the number of places with a record. -/
theorem size_eq_of_distinctKeys {cache : Cache}
    (h : ∀ slot, (cache.store slot).HasDistinctKeys) :
    {place : Slot × String |
      ∃ record, (cache.store place.1).find? place.2 = some record}.encard = cache.size := by
  have hPlaces : {place : Slot × String |
      ∃ record, (cache.store place.1).find? place.2 = some record} =
        ((Slot.all.flatMap cache.placesOf).toFinset : Set (Slot × String)) := by
    ext ⟨slot, key⟩
    rw [List.coe_toFinset]
    exact mem_places_iff.symm
  rw [hPlaces, Set.encard_coe_eq_coe_finsetCard, List.toFinset_card_of_nodup (nodup_places h),
    length_places]

/-- **A cache is a map with a lifetime.**  A value is read just if the cache is on, the key is not
empty, the last operation that touched the place was to put this value there, and the time that has
gone by since, none if the clock shows less than it did then, is below the lifetime.  The size
counts the places that were touched last by a put that took effect, however long ago. -/
theorem remembers_last_put (enabled : Bool) (lifetime : Nat) (operations : List Operation) :
    let cache := run enabled lifetime operations
    (∀ slot key value, cache.get? slot key = some value ↔
      enabled = true ∧ key ≠ "" ∧ ∃ stamp, IsLastPut operations slot key ⟨value, stamp⟩ ∧
        elapsed operations - stamp < lifetime) ∧
      {place : Slot × String | enabled = true ∧ place.2 ≠ "" ∧
        ∃ record, IsLastPut operations place.1 place.2 record}.encard = cache.size := by
  intro cache
  have hAfter : cache.IsAfter operations := isAfter_run enabled lifetime operations
  obtain ⟨hEnabled, hLifetime⟩ := settings_run enabled lifetime operations
  have hKeeps : ∀ key, cache.keeps key = true ↔ enabled = true ∧ key ≠ "" := by
    intro key
    rw [keeps_iff, hEnabled]
  have hAlive : ∀ stamp, cache.isAlive stamp = true ↔ elapsed operations - stamp < lifetime := by
    intro stamp
    rw [isAlive_iff, hAfter.now, hLifetime]
  constructor
  · intro slot key value
    rw [get?_eq_some_iff, ← and_assoc, ← hKeeps]
    constructor
    · rintro ⟨record, hRecord, hLives, rfl⟩
      have hOn := keeps_of_record? hRecord
      rw [record?, if_pos hOn, hAfter.found] at hRecord
      exact ⟨hOn, record.stamp, hRecord.2, (hAlive _).mp hLives⟩
    · rintro ⟨hOn, stamp, hPut, hLives⟩
      refine ⟨⟨value, stamp⟩, ?_, (hAlive _).mpr hLives, rfl⟩
      rw [record?, if_pos hOn, hAfter.found]
      exact ⟨hOn, hPut⟩
  · rw [← size_eq_of_distinctKeys hAfter.distinct]
    congr 1
    ext ⟨slot, key⟩
    simp only [Set.mem_ofPred_eq, hAfter.found, exists_and_left, hKeeps, and_assoc]

/-- A record that has expired is read again when the clock has wrapped. -/
example :
    let operations : List Operation := [.put .lines "a" ["x"], .advance 1000]
    (run true 1000 operations).get? .lines "a" = none ∧
      (run true 1000 (operations ++ [.advance Text.maxWord])).get? .lines "a" = some ["x"] := by
  decide

end Cache

end YamlIndex
