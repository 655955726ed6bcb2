import YamlIndex.Entry

/-!
# The ledger of jumps

A session keeps a record of each place it has jumped to, oldest first, and forgets the oldest ones
beyond a bound.  Jumping to the same place again right away adds nothing.

## Main results

* `length_add_le`: the bound holds after every addition.
-/

namespace YamlIndex

/-- The target of a jump: a dotted path, or a value. -/
structure Target where
  kind : EntryKind
  text : String
  deriving DecidableEq, Repr

/-- The latest targets of jumps. -/
structure Ledger where
  /-- The largest number of records. -/
  bound : Nat := 100
  /-- Oldest first. -/
  records : List Target := []
  deriving DecidableEq, Repr

namespace Ledger

/-- The latest record. -/
def last? (ledger : Ledger) : Option Target :=
  ledger.records.getLast?

/-- Whether adding the target would repeat the latest record. -/
def repeats (ledger : Ledger) (target : Target) : Bool :=
  ledger.last? = some target

/-- The ledger after a jump to the target. -/
def add (ledger : Ledger) (target : Target) : Ledger :=
  if ledger.repeats target then ledger
  else
    let records := ledger.records ++ [target]
    { ledger with records := records.drop (records.length - ledger.bound) }

/-- The ledger without its records. -/
def clear (ledger : Ledger) : Ledger :=
  { ledger with records := [] }

theorem bound_add (ledger : Ledger) (target : Target) :
    (ledger.add target).bound = ledger.bound := by
  unfold add
  split <;> rfl

theorem length_add_le {ledger : Ledger} (target : Target)
    (h : ledger.records.length ≤ ledger.bound) :
    (ledger.add target).records.length ≤ (ledger.add target).bound := by
  rw [bound_add]
  unfold add
  split
  · exact h
  · simp only [List.length_drop, List.length_append, List.length_singleton]
    omega

end Ledger

end YamlIndex
