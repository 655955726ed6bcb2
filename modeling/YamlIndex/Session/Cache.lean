import YamlIndex.Entry
import YamlIndex.Node
import YamlIndex.Text.Number

/-!
# Remembered results

A session remembers, under the key of each source, the lines it has read, the tree it has parsed
and the entries it has made.  A record lives for a limited time from when it was written; an older
one reads as missing, but keeps its place until it is written again or cleared.  The empty key and
a cache that is turned off remember nothing.

The time is part of the cache: a counter of milliseconds that moves only when told to, and wraps at
the size of a word.

## Main results

* `Store.find?_insert`, `Store.find?_erase`: a store is a map.
* `store_replace_self`, `store_replace_ne`: the slots are independent.
-/

namespace YamlIndex

/-- A value and the time it was written. -/
structure Stamped (α : Type) where
  value : α
  /-- In milliseconds. -/
  stamp : Nat
  deriving Repr

/-- The records of one kind by key; each key occurs once. -/
structure Store (α : Type) where
  records : List (String × Stamped α) := []
  deriving Repr

namespace Store

variable {α : Type}

/-- The record under a key, whatever its age. -/
def find? (store : Store α) (key : String) : Option (Stamped α) :=
  store.records.lookup key

/-- The store without the record under a key. -/
def erase (store : Store α) (key : String) : Store α :=
  ⟨store.records.filter fun record => record.1 != key⟩

/-- The store with a record under a key, in place of an earlier one. -/
def insert (store : Store α) (key : String) (record : Stamped α) : Store α :=
  ⟨(key, record) :: (store.erase key).records⟩

/-- The number of records, whatever their age. -/
def size (store : Store α) : Nat :=
  store.records.length

theorem find?_erase (store : Store α) (key other : String) :
    (store.erase key).find? other = if other = key then none else store.find? other := by
  obtain ⟨records⟩ := store
  simp only [erase, find?]
  induction records with
  | nil => simp
  | cons record records ih =>
    obtain ⟨k, r⟩ := record
    by_cases hk : k = key
    · subst hk
      rw [List.filter_cons_of_neg (by simp), ih]
      by_cases ho : other = k
      · simp [ho]
      · simp [ho, List.lookup_cons, beq_eq_false_iff_ne.2 ho]
    · rw [List.filter_cons_of_pos (by simpa using hk), List.lookup_cons, List.lookup_cons, ih]
      by_cases ho : other = k
      · subst ho
        simp [hk]
      · simp [beq_eq_false_iff_ne.2 ho]

theorem find?_insert (store : Store α) (key other : String) (record : Stamped α) :
    (store.insert key record).find? other =
      if other = key then some record else store.find? other := by
  by_cases h : other = key
  · simp [find?, insert, h]
  · have hErase := find?_erase store key other
    simp only [find?, h, if_false] at hErase
    simp [find?, insert, h, List.lookup_cons, beq_eq_false_iff_ne.2 h, hErase]

end Store

/-! ## The cache of a session -/

/-- The kinds of results that are remembered. -/
inductive Slot where
  | lines
  | tree
  | entries (kind : EntryKind)
  deriving DecidableEq, Repr

/-- What is remembered in a slot. -/
abbrev Slot.Content : Slot → Type
  | lines => List String
  | tree => Node
  | entries kind => List kind.Entry

/-- What a session remembers. -/
structure Cache where
  enabled : Bool := true
  /-- The time that a record lives, in milliseconds. -/
  lifetime : Nat
  /-- The present time, in milliseconds. -/
  now : Nat := 0
  lines : Store (List String) := {}
  trees : Store Node := {}
  paths : Store (List PathEntry) := {}
  values : Store (List ValueEntry) := {}
  deriving Repr

namespace Cache

/-- The store of a slot. -/
def store (cache : Cache) : (slot : Slot) → Store slot.Content
  | .lines => cache.lines
  | .tree => cache.trees
  | .entries .path => cache.paths
  | .entries .value => cache.values

/-- The cache with another store in a slot. -/
def replace (cache : Cache) : (slot : Slot) → Store slot.Content → Cache
  | .lines, store => { cache with lines := store }
  | .tree, store => { cache with trees := store }
  | .entries .path, store => { cache with paths := store }
  | .entries .value, store => { cache with values := store }

/-- Whether results are remembered under a key. -/
def keeps (cache : Cache) (key : String) : Bool :=
  cache.enabled && !key.isEmpty

/-- Whether a record written at the given time is still alive. -/
def isAlive (cache : Cache) (stamp : Nat) : Bool :=
  cache.now - stamp < cache.lifetime

/-- What is remembered under a key. -/
def get? (cache : Cache) (slot : Slot) (key : String) : Option slot.Content :=
  if cache.keeps key then
    match (cache.store slot).find? key with
    | some record => if cache.isAlive record.stamp then some record.value else none
    | none => none
  else none

/-- Remembers a result from now on. -/
def put (cache : Cache) (slot : Slot) (key : String) (value : slot.Content) : Cache :=
  if cache.keeps key then
    cache.replace slot ((cache.store slot).insert key ⟨value, cache.now⟩)
  else cache

/-- Forgets all results under a key. -/
def erase (cache : Cache) (key : String) : Cache :=
  { cache with
    lines := cache.lines.erase key
    trees := cache.trees.erase key
    paths := cache.paths.erase key
    values := cache.values.erase key }

/-- Forgets all results. -/
def clear (cache : Cache) : Cache :=
  { cache with lines := {}, trees := {}, paths := {}, values := {} }

/-- Lets time go by, in milliseconds; a span too large for a word counts as the largest word. -/
def advance (cache : Cache) (span : Nat) : Cache :=
  { cache with now := (cache.now + min span Text.maxWord) % (Text.maxWord + 1) }

/-- The number of records in all slots, whatever their age. -/
def size (cache : Cache) : Nat :=
  cache.paths.size + cache.values.size + cache.lines.size + cache.trees.size

theorem store_replace_self (cache : Cache) (slot : Slot) (store : Store slot.Content) :
    (cache.replace slot store).store slot = store := by
  rcases slot with _ | _ | _ | _ <;> rfl

theorem store_replace_ne (cache : Cache) {slot other : Slot} (store : Store slot.Content)
    (h : other ≠ slot) : (cache.replace slot store).store other = cache.store other := by
  rcases slot with _ | _ | _ | _ <;> rcases other with _ | _ | _ | _ <;>
    first | rfl | exact absurd rfl h

theorem store_erase (cache : Cache) (slot : Slot) (key : String) :
    (cache.erase key).store slot = (cache.store slot).erase key := by
  rcases slot with _ | _ | _ | _ <;> rfl

end Cache

end YamlIndex
