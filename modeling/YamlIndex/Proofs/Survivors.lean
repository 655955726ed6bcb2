import Mathlib.Data.List.Basic
import Mathlib.Data.List.Infix

/-!
# What survives from place to place

Each place in a row gives rise to some elements, and each later place keeps some of those that are
there and drops the others for good.  What is there above a place are the *survivors*: the elements
of all earlier places that every place in between has kept.

The survivors are a stack when each place that keeps an element also keeps all in front of it.  Then
what stands below an element never changes while the element is there: it is what was kept at the
place that gave rise to it.

## Main results

* `survivors_succ`: behind a place there is what it keeps, and what it gives rise to itself.
* `IsStack.exists_origin`: a front part of the survivors, up to an element, is what was kept at the
  place of that element and what this place has put in front of it.
* `IsStack.exists_stem`: what a later place keeps is a front part of what an earlier one kept, and
  all behind it is younger.
-/

namespace YamlIndex

/-- What the places above a place give rise to and all places in between keep. -/
def survivors {α : Type} (emit : Nat → List α) (keeps : α → Nat → Bool) (i : Nat) : List α :=
  (List.range i).flatMap fun j => (emit j).filter fun a => ∀ k < i, j < k → keeps a k = true

/-- What a place keeps of the survivors above it. -/
def kept {α : Type} (emit : Nat → List α) (keeps : α → Nat → Bool) (i : Nat) : List α :=
  (survivors emit keeps i).filter fun a => keeps a i

section Survivors

variable {α β : Type} {emit : Nat → List α} {keeps : α → Nat → Bool} {i j : Nat}

/-- A place keeps the elements that all places up to and including it keep. -/
theorem kept_eq_flatMap (emit : Nat → List α) (keeps : α → Nat → Bool) (i : Nat) :
    kept emit keeps i = (List.range i).flatMap fun j => (emit j).filter fun a =>
      ∀ k ≤ i, j < k → keeps a k = true := by
  rw [kept, survivors, List.filter_flatMap]
  refine List.flatMap_congr ?_
  intro j hj
  have hji : j < i := List.mem_range.mp hj
  rw [List.filter_filter]
  refine List.filter_congr ?_
  intro a _
  rw [Bool.eq_iff_iff, Bool.and_eq_true, decide_eq_true_eq, decide_eq_true_eq]
  constructor
  · rintro ⟨hLast, hBefore⟩ k hk hjk
    rcases Nat.lt_or_eq_of_le hk with hlt | rfl
    · exact hBefore k hlt hjk
    · exact hLast
  · intro h
    exact ⟨h i (Nat.le_refl i) hji, fun k hk => h k (Nat.le_of_lt hk)⟩

/-- Behind a place there is what it keeps, and what it gives rise to itself. -/
theorem survivors_succ (emit : Nat → List α) (keeps : α → Nat → Bool) (i : Nat) :
    survivors emit keeps (i + 1) = kept emit keeps i ++ emit i := by
  rw [kept_eq_flatMap, survivors, List.range_succ, List.flatMap_append]
  congr 1
  · refine List.flatMap_congr ?_
    intro j _
    refine List.filter_congr ?_
    intro a _
    simp only [Nat.lt_succ_iff]
  · rw [List.flatMap_singleton, List.filter_eq_self]
    intro a _
    rw [decide_eq_true_eq]
    intro k hk hik
    omega

/-- A place that keeps everything and adds nothing leaves the survivors as they are. -/
theorem survivors_succ_of_keeps (hEmit : emit i = []) (hKeeps : ∀ a, keeps a i = true) :
    survivors emit keeps (i + 1) = survivors emit keeps i := by
  rw [survivors_succ, hEmit, List.append_nil, kept, List.filter_eq_self]
  exact fun a _ => hKeeps a

/-- A view of the elements by which they are kept takes what is kept to what is kept. -/
theorem map_survivors (keeps' : β → Nat → Bool) (view : α → β)
    (h : ∀ a k, keeps' (view a) k = keeps a k) (i : Nat) :
    (survivors emit keeps i).map view = survivors (fun j => (emit j).map view) keeps' i := by
  rw [survivors, List.map_flatMap, survivors]
  refine List.flatMap_congr ?_
  intro j _
  rw [List.filter_map]
  congr 1
  refine List.filter_congr ?_
  intro a _
  simp only [Function.comp_apply, h]

theorem map_kept (keeps' : β → Nat → Bool) (view : α → β)
    (h : ∀ a k, keeps' (view a) k = keeps a k) (i : Nat) :
    (kept emit keeps i).map view = kept (fun j => (emit j).map view) keeps' i := by
  rw [kept, kept, ← map_survivors keeps' view h, List.filter_map]
  congr 1
  refine List.filter_congr ?_
  intro a _
  simp only [Function.comp_apply, h]

/-! ## Survivors as a stack -/

/-- Each place that keeps an element keeps all that stands in front of it. -/
def IsStack (emit : Nat → List α) (keeps : α → Nat → Bool) : Prop :=
  ∀ i, (survivors emit keeps i).Pairwise fun outer inner =>
    keeps inner i = true → keeps outer i = true

/-- Along a list on which a property is passed on to everything in front, the elements with the
property are a front part. -/
theorem filter_prefix_of_pairwise {p : α → Bool} {xs : List α}
    (h : xs.Pairwise fun x y => p y = true → p x = true) : xs.filter p <+: xs := by
  induction xs with
  | nil => exact List.prefix_refl []
  | cons x xs ih =>
      obtain ⟨hHead, hTail⟩ := List.pairwise_cons.mp h
      by_cases hx : p x = true
      · rw [List.filter_cons_of_pos hx]
        exact (List.prefix_cons_inj x).mpr (ih hTail)
      · have hNone : (x :: xs).filter p = [] := by
          rw [List.filter_eq_nil_iff]
          intro y hy hpy
          rcases List.mem_cons.mp hy with rfl | hy
          · exact hx hpy
          · exact hx (hHead y hy hpy)
        rw [hNone]
        exact List.nil_prefix

theorem IsStack.kept_prefix_survivors (h : IsStack emit keeps) (i : Nat) :
    kept emit keeps i <+: survivors emit keeps i :=
  filter_prefix_of_pairwise (h i)

/-- A front part of two lists behind each other is one of the first, or takes in all of it. -/
theorem prefix_append_cases {xs ys zs : List α} (h : xs <+: ys ++ zs) :
    xs <+: ys ∨ ∃ rest, rest ≠ [] ∧ rest <+: zs ∧ xs = ys ++ rest := by
  rcases List.prefix_or_prefix_of_prefix h (List.prefix_append ys zs) with hShort | ⟨rest, rfl⟩
  · exact .inl hShort
  · cases rest with
    | nil => exact .inl (by simp)
    | cons x rest =>
        exact .inr ⟨x :: rest, List.cons_ne_nil x rest, (List.prefix_append_right_inj ys).mp h, rfl⟩

/-- What stands below an element is what was kept where the element comes from, and what this place
has put in front of it. -/
theorem IsStack.exists_origin (h : IsStack emit keeps) {below : List α} {a : α}
    (hBelow : below ++ [a] <+: survivors emit keeps i) :
    ∃ m < i, ∃ before, before ++ [a] <+: emit m ∧ below = kept emit keeps m ++ before := by
  induction i with
  | zero => exact absurd (List.prefix_nil.mp hBelow) (by simp)
  | succ i ih =>
      rw [survivors_succ] at hBelow
      rcases prefix_append_cases hBelow with hKept | ⟨rest, hRest, hEmit, hSplit⟩
      · obtain ⟨m, hm, hOrigin⟩ := ih (hKept.trans (h.kept_prefix_survivors i))
        exact ⟨m, Nat.lt_succ_of_lt hm, hOrigin⟩
      · obtain ⟨before, last, rfl⟩ := (List.eq_nil_or_concat' rest).resolve_left hRest
        rw [← List.append_assoc] at hSplit
        obtain ⟨hBefore, hLast⟩ := List.append_inj' hSplit rfl
        obtain rfl : a = last := by simpa using hLast
        exact ⟨i, Nat.lt_succ_self i, before, hEmit, hBefore⟩

/-- What a later place keeps is a front part of what an earlier one kept, and behind it only what
the places from the earlier one on have given rise to. -/
theorem IsStack.exists_stem (h : IsStack emit keeps) (hji : j ≤ i) :
    ∃ stem younger, kept emit keeps i = stem ++ younger ∧ stem <+: kept emit keeps j ∧
      ∀ a ∈ younger, ∃ m, j ≤ m ∧ a ∈ emit m := by
  induction i, hji using Nat.le_induction with
  | base => exact ⟨_, [], (List.append_nil _).symm, List.prefix_refl _, by simp⟩
  | succ i hji ih =>
      obtain ⟨stem, younger, hSplit, hStem, hYounger⟩ := ih
      have hKept := h.kept_prefix_survivors (i + 1)
      rw [survivors_succ, hSplit, List.append_assoc] at hKept
      rcases prefix_append_cases hKept with hShort | ⟨rest, -, hRest, hLong⟩
      · exact ⟨_, [], (List.append_nil _).symm, hShort.trans hStem, by simp⟩
      · refine ⟨stem, rest, hLong, hStem, ?_⟩
        intro a ha
        rcases List.mem_append.mp (hRest.subset ha) with hOld | hNew
        · exact hYounger a hOld
        · exact ⟨i, hji, hNew⟩

end Survivors

end YamlIndex
