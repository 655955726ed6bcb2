import Mathlib.Data.List.Destutter
import Mathlib.Data.List.DropRight
import YamlIndex.Session.Ledger

/-!
# Runs of a ledger

A ledger compares a target with its latest record only, and that record may be gone as far as the
bound is concerned: what it keeps is a piece of the records it has made.  Still it keeps what it
would keep if it had seen everything.  Of all targets that were added since it was cleared last, a
run of equal ones counts once, and the ledger holds the latest of these, as many as its bound
allows.

The reason is that the end of a list survives both steps.  To collapse a list leaves its last
element (`getLast?_destutter`), and so does to cut its front off, unless nothing is left
(`getLast?_rtake`).  So the latest record, where there is one, is the target that was added last.

## Main results

* `records_run`: the records are the collapsed targets, cut to the bound.
* `records_are_collapsed_suffix`: the records, what an addition repeats, and what follows for the
  length and for neighbours.
-/

namespace YamlIndex

/-! ## Collapsing a list from its end -/

section Collapsing

variable {α : Type} [DecidableEq α]

theorem destutter'_concat (first last : α) (rest : List α) :
    (rest ++ [last]).destutter' (· ≠ ·) first =
      if (rest.destutter' (· ≠ ·) first).getLast? = some last then rest.destutter' (· ≠ ·) first
      else rest.destutter' (· ≠ ·) first ++ [last] := by
  induction rest generalizing first with
  | nil => by_cases h : first = last <;> simp [List.destutter', h]
  | cons next rest ih =>
      rw [List.cons_append]
      by_cases hSame : first = next
      · rw [List.destutter'_cons_neg _ (not_not.mpr hSame),
          List.destutter'_cons_neg _ (not_not.mpr hSame)]
        exact ih first
      · rw [List.destutter'_cons_pos _ hSame, List.destutter'_cons_pos _ hSame, ih next,
          List.getLast?_cons_of_ne_nil (List.destutter'_ne_nil rest (· ≠ ·))]
        split <;> rfl

/-- A further element stays when it is not the one that the collapsed list ends in. -/
theorem destutter_concat (xs : List α) (last : α) :
    (xs ++ [last]).destutter (· ≠ ·) =
      if (xs.destutter (· ≠ ·)).getLast? = some last then xs.destutter (· ≠ ·)
      else xs.destutter (· ≠ ·) ++ [last] := by
  cases xs with
  | nil => simp
  | cons first rest => exact destutter'_concat first last rest

/-- To collapse a list leaves its last element. -/
theorem getLast?_destutter (xs : List α) : (xs.destutter (· ≠ ·)).getLast? = xs.getLast? := by
  induction xs using List.reverseRecOn with
  | nil => rfl
  | append_singleton xs last ih =>
      rw [destutter_concat, List.getLast?_concat]
      split
      · assumption
      · exact List.getLast?_concat

end Collapsing

/-! ## The end of a list -/

section Ends

variable {α : Type} {bound : Nat}

/-- The end of a list has its last element. -/
theorem getLast?_rtake (hBound : 1 ≤ bound) (xs : List α) :
    (xs.rtake bound).getLast? = xs.getLast? := by
  unfold List.rtake
  rw [List.getLast?_drop]
  split
  · have hNil : xs = [] := List.eq_nil_of_length_eq_zero (by omega)
    rw [hNil]
    rfl
  · rfl

/-- What is cut off a list is not seen in the end of a longer one. -/
theorem rtake_rtake_concat (bound : Nat) (xs : List α) (last : α) :
    (xs.rtake bound ++ [last]).rtake bound = (xs ++ [last]).rtake bound := by
  cases bound with
  | zero => rw [List.rtake_zero, List.rtake_zero]
  | succ bound =>
      rw [List.rtake_concat_succ, List.rtake_concat_succ]
      congr 1
      unfold List.rtake
      rw [List.drop_drop, List.length_drop]
      congr 1
      omega

end Ends

namespace Ledger

/-! ## Runs -/

/-- Something that is done to a ledger. -/
inductive Event where
  | add (target : Target)
  | clear
  deriving DecidableEq

namespace Event

/-- The target that is added, if one is. -/
def target? : Event → Option Target
  | add target => some target
  | clear => none

end Event

/-- The ledger after an event. -/
def perform (ledger : Ledger) : Event → Ledger
  | .add target => ledger.add target
  | .clear => ledger.clear

/-- The ledger of the given bound after a run that begins without records. -/
def run (bound : Nat) (events : List Event) : Ledger :=
  events.foldl perform { bound }

/-- The targets that were added since the last clearing, oldest first. -/
def added (events : List Event) : List Target :=
  (events.rtakeWhile fun event => event.target?.isSome).filterMap Event.target?

theorem run_concat (bound : Nat) (events : List Event) (event : Event) :
    run bound (events ++ [event]) = (run bound events).perform event :=
  List.foldl_concat ..

theorem added_add (events : List Event) (target : Target) :
    added (events ++ [.add target]) = added events ++ [target] := by
  unfold added
  rw [List.rtakeWhile_concat_pos _ _ _ rfl, List.filterMap_append]
  rfl

theorem added_clear (events : List Event) : added (events ++ [.clear]) = [] := by
  unfold added
  rw [List.rtakeWhile_concat_neg _ _ _ (by decide)]
  rfl

theorem bound_run (bound : Nat) (events : List Event) : (run bound events).bound = bound := by
  induction events using List.reverseRecOn with
  | nil => rfl
  | append_singleton events event ih =>
      rw [run_concat]
      cases event with
      | add target => exact (bound_add _ target).trans ih
      | clear => exact ih

/-! ## What is recorded -/

theorem repeats_iff {ledger : Ledger} {target : Target} :
    ledger.repeats target = true ↔ ledger.records.getLast? = some target := by
  unfold repeats last?
  exact decide_eq_true_iff

/-- An addition appends to the end of what a ledger would hold without a bound. -/
theorem records_add {ledger : Ledger} {all : List Target}
    (h : ledger.records = (all.destutter (· ≠ ·)).rtake ledger.bound) (target : Target) :
    (ledger.add target).records = ((all ++ [target]).destutter (· ≠ ·)).rtake ledger.bound := by
  rw [destutter_concat]
  by_cases hBound : ledger.bound = 0
  · -- nothing is ever recorded, so nothing is repeated either
    have hNone : ledger.records = [] := by rw [h, hBound, List.rtake_zero]
    have hRoom : ledger.records.length ≤ ledger.bound := by
      rw [hNone]
      exact Nat.zero_le _
    have hLength := length_add_le target hRoom
    rw [bound_add, hBound] at hLength
    rw [List.eq_nil_of_length_eq_zero (Nat.le_zero.mp hLength), hBound, List.rtake_zero]
  · have hLast : ledger.records.getLast? = (all.destutter (· ≠ ·)).getLast? := by
      rw [h]
      exact getLast?_rtake (by omega) _
    unfold add
    by_cases hRepeats : ledger.repeats target = true
    · rw [if_pos hRepeats, if_pos (hLast ▸ repeats_iff.mp hRepeats)]
      exact h
    · rw [if_neg hRepeats, if_neg (fun hEnd => hRepeats (repeats_iff.mpr (hLast.trans hEnd)))]
      rw [← rtake_rtake_concat, ← h]
      rfl

/-- The records of a run are the targets added since the last clearing, each run of equal ones once,
cut to the latest ones. -/
theorem records_run (bound : Nat) (events : List Event) :
    (run bound events).records = ((added events).destutter (· ≠ ·)).rtake bound := by
  induction events using List.reverseRecOn with
  | nil => exact (List.rtake_nil bound).symm
  | append_singleton events event ih =>
      rw [run_concat]
      cases event with
      | add target =>
          have hBefore : (run bound events).records =
              ((added events).destutter (· ≠ ·)).rtake (run bound events).bound := by
            rw [bound_run]
            exact ih
          have hStep := records_add hBefore target
          rw [bound_run] at hStep
          rw [added_add]
          exact hStep
      | clear =>
          rw [added_clear, List.destutter_nil, List.rtake_nil]
          rfl

/-- **A ledger is a bounded suffix without runs.**  Its records are the last ones, as many as the
bound allows, of the targets added since the last clearing with every run of equal ones collapsed to
one.  With room for a record, an addition repeats the latest record just if it repeats the target
added last.  So there are never more records than the bound, and no two neighbours are equal. -/
theorem records_are_collapsed_suffix (bound : Nat) (events : List Event) :
    let ledger := run bound events
    ledger.records = ((added events).destutter (· ≠ ·)).rtake bound ∧
      (1 ≤ bound → ∀ target,
        ledger.repeats target = true ↔ (added events).getLast? = some target) ∧
      ledger.records.length ≤ bound ∧ ledger.records.IsChain (· ≠ ·) := by
  intro ledger
  have hRecords : ledger.records = ((added events).destutter (· ≠ ·)).rtake bound :=
    records_run bound events
  refine ⟨hRecords, fun hBound target => ?_, ?_, ?_⟩
  · rw [repeats_iff, hRecords, getLast?_rtake hBound, getLast?_destutter]
  · rw [hRecords]
    unfold List.rtake
    rw [List.length_drop]
    omega
  · rw [hRecords]
    exact (List.isChain_destutter (· ≠ ·) (added events)).drop _

/-- A ledger of two records that was cleared once and then got four targets, one of them twice. -/
theorem records_are_collapsed_suffix_of_two :
    let target : String → Target := fun text => ⟨.path, text⟩
    let events : List Event :=
      [.add (target "z"), .clear, .add (target "a"), .add (target "b"), .add (target "a"),
        .add (target "c"), .add (target "c")]
    (run 2 events).records = [target "a", target "c"] ∧
      (run 2 events).repeats (target "c") = true ∧
        (run 2 events).repeats (target "a") = false := by
  intro target events
  obtain ⟨hRecords, hRepeats, -⟩ := records_are_collapsed_suffix 2 events
  have hLast : (added events).getLast? = some (target "c") := by decide
  refine ⟨hRecords.trans (by decide), (hRepeats (by decide) _).mpr hLast, ?_⟩
  rw [Bool.eq_false_iff]
  intro hRepeat
  have hOther := (hRepeats (by decide) (target "a")).mp hRepeat
  rw [hLast] at hOther
  exact absurd hOther (by decide)

end Ledger

end YamlIndex
