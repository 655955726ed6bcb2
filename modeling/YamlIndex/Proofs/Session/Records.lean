import YamlIndex.Session.Cache

/-!
# Records of a cache

`Cache.get?` reads a record only while it lives.  Time may bring a record back, since the counter of
milliseconds wraps, so an invariant of a session is one of all records, whatever their age:
`Cache.record?`.  A cache that keeps nothing under a key has no records there.

## Main results

* `record?_put_self`, `record?_put_key`, `record?_put_slot`: writing a record leaves the others.
* `record?_put_cases`: what is there behind a write.
* `record?_erase`, `record?_advance`: forgetting takes records away, and time does not.
-/

namespace YamlIndex.Cache

/-- What was written last in a slot under a key, whatever its age. -/
def record? (cache : Cache) (slot : Slot) (key : String) : Option (Stamped slot.Content) :=
  if cache.keeps key then (cache.store slot).find? key else none

theorem keeps_of_record? {cache : Cache} {slot : Slot} {key : String}
    {record : Stamped slot.Content} (h : cache.record? slot key = some record) :
    cache.keeps key = true := by
  rw [record?] at h
  split at h
  · assumption
  · exact absurd h (by simp)

/-- What is read is the value of a record that is alive. -/
theorem get?_eq_some_iff {cache : Cache} {slot : Slot} {key : String} {value : slot.Content} :
    cache.get? slot key = some value ↔
      ∃ record, cache.record? slot key = some record ∧ cache.isAlive record.stamp = true ∧
        record.value = value := by
  rw [get?, record?]
  by_cases hKeeps : cache.keeps key = true
  · rw [if_pos hKeeps, if_pos hKeeps]
    cases hFind : (cache.store slot).find? key with
    | none => simp
    | some record =>
        by_cases hAlive : cache.isAlive record.stamp = true
        · simp [hAlive]
        · simp [hAlive]
  · rw [if_neg hKeeps, if_neg hKeeps]
    simp

theorem exists_record?_of_get? {cache : Cache} {slot : Slot} {key : String} {value : slot.Content}
    (h : cache.get? slot key = some value) :
    ∃ record, cache.record? slot key = some record ∧ record.value = value := by
  obtain ⟨record, hRecord, -, hValue⟩ := get?_eq_some_iff.mp h
  exact ⟨record, hRecord, hValue⟩

/-- Nothing is read where no record is alive. -/
theorem get?_eq_none_iff {cache : Cache} {slot : Slot} {key : String} :
    cache.get? slot key = none ↔
      ∀ record, cache.record? slot key = some record → cache.isAlive record.stamp = false := by
  constructor
  · intro hNone record hRecord
    cases hAlive : cache.isAlive record.stamp with
    | false => rfl
    | true =>
        have hGet := get?_eq_some_iff.mpr ⟨record, hRecord, hAlive, rfl⟩
        rw [hNone] at hGet
        exact absurd hGet (by simp)
  · intro hDead
    cases hGet : cache.get? slot key with
    | none => rfl
    | some value =>
        obtain ⟨record, hRecord, hAlive, -⟩ := get?_eq_some_iff.mp hGet
        rw [hDead record hRecord] at hAlive
        exact absurd hAlive (by simp)

/-- A record that is alive was written less than a lifetime ago. -/
theorem isAlive_iff {cache : Cache} {stamp : Nat} :
    cache.isAlive stamp = true ↔ cache.now - stamp < cache.lifetime := by
  rw [isAlive, decide_eq_true_iff]

/-! ## Another store in a slot -/

@[simp] theorem keeps_replace (cache : Cache) (slot : Slot) (store : Store slot.Content)
    (key : String) : (cache.replace slot store).keeps key = cache.keeps key := by
  rcases slot with _ | _ | _ | _ <;> rfl

@[simp] theorem keeps_put (cache : Cache) (slot : Slot) (key other : String)
    (value : slot.Content) : (cache.put slot key value).keeps other = cache.keeps other := by
  rw [put]
  split
  · exact keeps_replace cache slot _ other
  · rfl

/-- A write takes no time. -/
theorem clock_put (cache : Cache) (slot : Slot) (key : String) (value : slot.Content) :
    (cache.put slot key value).now = cache.now ∧
      (cache.put slot key value).lifetime = cache.lifetime := by
  rw [put]
  split
  · rcases slot with _ | _ | _ | _ <;> exact ⟨rfl, rfl⟩
  · exact ⟨rfl, rfl⟩

theorem isAlive_put (cache : Cache) (slot : Slot) (key : String) (value : slot.Content)
    (stamp : Nat) : (cache.put slot key value).isAlive stamp = cache.isAlive stamp := by
  obtain ⟨hNow, hLifetime⟩ := clock_put cache slot key value
  rw [isAlive, isAlive, hNow, hLifetime]

/-! ## What the operations do to records -/

theorem record?_put_self (cache : Cache) (slot : Slot) (key : String) (value : slot.Content) :
    (cache.put slot key value).record? slot key =
      if cache.keeps key then some ⟨value, cache.now⟩ else none := by
  rw [record?, keeps_put]
  by_cases hKeeps : cache.keeps key = true
  · rw [if_pos hKeeps, if_pos hKeeps, put, if_pos hKeeps, store_replace_self, Store.find?_insert,
      if_pos rfl]
  · rw [if_neg hKeeps, if_neg hKeeps]

/-- The record behind a write is the one that was written. -/
theorem eq_of_record?_put_self {cache : Cache} {slot : Slot} {key : String}
    {value : slot.Content} {record : Stamped slot.Content}
    (h : (cache.put slot key value).record? slot key = some record) :
    record = ⟨value, cache.now⟩ := by
  rw [record?_put_self] at h
  split at h
  · exact (Option.some.inj h).symm
  · exact absurd h (by simp)

theorem store_put_slot (cache : Cache) {slot other : Slot} (h : other ≠ slot) (key : String)
    (value : slot.Content) : (cache.put slot key value).store other = cache.store other := by
  rw [put]
  split
  · exact store_replace_ne cache _ h
  · rfl

theorem record?_put_slot (cache : Cache) {slot other : Slot} (h : other ≠ slot)
    (key otherKey : String) (value : slot.Content) :
    (cache.put slot key value).record? other otherKey = cache.record? other otherKey := by
  rw [record?, keeps_put, store_put_slot cache h, record?]

theorem get?_put_slot (cache : Cache) {slot other : Slot} (h : other ≠ slot)
    (key otherKey : String) (value : slot.Content) :
    (cache.put slot key value).get? other otherKey = cache.get? other otherKey := by
  simp only [get?, keeps_put, store_put_slot cache h, isAlive_put]

theorem find?_put_key (cache : Cache) (slot other : Slot) {key otherKey : String}
    (h : otherKey ≠ key) (value : slot.Content) :
    ((cache.put slot key value).store other).find? otherKey =
      (cache.store other).find? otherKey := by
  by_cases hSlot : other = slot
  · subst hSlot
    rw [put]
    split
    · rw [store_replace_self, Store.find?_insert, if_neg h]
    · rfl
  · rw [store_put_slot cache hSlot]

theorem record?_put_key (cache : Cache) (slot other : Slot) {key otherKey : String}
    (h : otherKey ≠ key) (value : slot.Content) :
    (cache.put slot key value).record? other otherKey = cache.record? other otherKey := by
  rw [record?, keeps_put, find?_put_key cache slot other h, record?]

/-- A record behind a write is the one that was written, or it was there before. -/
theorem record?_put_cases {cache : Cache} {slot other : Slot} {key otherKey : String}
    {value : slot.Content} {record : Stamped other.Content}
    (h : (cache.put slot key value).record? other otherKey = some record) :
    (∃ hSlot : slot = other, otherKey = key ∧ record.value = hSlot ▸ value) ∨
      ¬(other = slot ∧ otherKey = key) ∧ cache.record? other otherKey = some record := by
  by_cases hKey : otherKey = key
  · by_cases hSlot : other = slot
    · subst hSlot
      subst hKey
      rw [eq_of_record?_put_self h]
      exact .inl ⟨rfl, rfl, rfl⟩
    · rw [record?_put_slot cache hSlot] at h
      exact .inr ⟨fun hSame => hSlot hSame.1, h⟩
  · rw [record?_put_key cache slot other hKey] at h
    exact .inr ⟨fun hSame => hKey hSame.2, h⟩

theorem get?_put_key (cache : Cache) (slot other : Slot) {key otherKey : String}
    (h : otherKey ≠ key) (value : slot.Content) :
    (cache.put slot key value).get? other otherKey = cache.get? other otherKey := by
  simp only [get?, keeps_put, find?_put_key cache slot other h, isAlive_put]

theorem record?_erase (cache : Cache) (slot : Slot) (key other : String) :
    (cache.erase key).record? slot other =
      if other = key then none else cache.record? slot other := by
  have hKeeps : (cache.erase key).keeps other = cache.keeps other := rfl
  rw [record?, hKeeps, store_erase, Store.find?_erase, record?]
  by_cases hKey : other = key
  · rw [if_pos hKey, if_pos hKey, ite_self]
  · rw [if_neg hKey, if_neg hKey]

theorem record?_of_erase {cache : Cache} {slot : Slot} {key other : String}
    {record : Stamped slot.Content} (h : (cache.erase key).record? slot other = some record) :
    other ≠ key ∧ cache.record? slot other = some record := by
  rw [record?_erase] at h
  split at h
  · exact absurd h (by simp)
  · rename_i hKey
    exact ⟨hKey, h⟩

theorem record?_clear (cache : Cache) (slot : Slot) (key : String) :
    cache.clear.record? slot key = none := by
  rw [record?]
  split
  · rcases slot with _ | _ | _ | _ <;> rfl
  · rfl

theorem record?_advance (cache : Cache) (span : Nat) (slot : Slot) (key : String) :
    (cache.advance span).record? slot key = cache.record? slot key := by
  rcases slot with _ | _ | _ | _ <;> rfl

end YamlIndex.Cache
