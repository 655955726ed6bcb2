import YamlIndex.Scan
import Mathlib.Data.List.Basic

/-!
# The shape of the open ancestors

Closing only ever looks at the innermost ancestor, and stops at the first one that stays.  That this
closes exactly what a line closes rests on the shape of the chain: columns do not decrease from the
outside in, and two neighbours share a column only where a position stands in the column of the key
that it belongs to.  The shape is `Ancestors.Nested`; both ways of closing keep it, and so does
whatever a line opens after it has closed.

## Main results

* `outermostFirst_close`, `outermostFirst_closeItem`: closing keeps exactly the ancestors that a
  line does not close, wherever in the chain they stand.
* `nested_readMapping`, `nested_readItem`: the shape holds behind every line that opens ancestors.
-/

namespace YamlIndex

/-- Along a list on which a property is passed on to everything in front, dropping the leading
elements with the property drops all of them. -/
theorem dropWhile_eq_filter_not {α : Type} {p : α → Bool} {xs : List α}
    (h : xs.Pairwise fun x y => p y = true → p x = true) :
    xs.dropWhile p = xs.filter fun x => !p x := by
  induction xs with
  | nil => rfl
  | cons x xs ih =>
      obtain ⟨hHead, hTail⟩ := List.pairwise_cons.mp h
      by_cases hx : p x = true
      · rw [List.dropWhile_cons_of_pos hx, List.filter_cons_of_neg (by simp [hx])]
        exact ih hTail
      · -- The first element that stays makes all behind it stay.
        have hAll : ∀ y ∈ x :: xs, (!p y) = true := by
          intro y hy
          rcases List.mem_cons.mp hy with rfl | hy
          · simpa using hx
          · have hNot : ¬ p y = true := fun hpy => hx (hHead y hy hpy)
            simpa using hNot
        rw [List.dropWhile_cons_of_neg hx, List.filter_eq_self.mpr hAll]

/-- Whether an ancestor can stand further out than another one: further left, or as the key to which
a position in the same column belongs. -/
def Ancestor.Encloses (outer inner : Ancestor) : Prop :=
  outer.column < inner.column ∨
    (outer.column = inner.column ∧ outer.segment.isIndex = false ∧
      inner.segment.isIndex = true)

namespace Ancestors

/-- Each ancestor encloses all those further in. -/
def Nested (ancestors : Ancestors) : Prop :=
  ancestors.chain.Pairwise fun inner outer => outer.Encloses inner

theorem nested_empty : ({} : Ancestors).Nested :=
  List.Pairwise.nil

/-- Opening keeps the shape when all that is open encloses the new ancestor. -/
theorem Nested.push {ancestors : Ancestors} {segment : Segment} {column : Nat}
    (h : ancestors.Nested)
    (hOuter : ∀ a ∈ ancestors.chain, a.Encloses ⟨segment, column⟩) :
    (ancestors.push segment column).Nested :=
  List.pairwise_cons.mpr ⟨hOuter, h⟩

theorem Nested.close {ancestors : Ancestors} (h : ancestors.Nested) (column : Nat) :
    (ancestors.close column).Nested :=
  h.sublist (List.dropWhile_sublist _)

theorem Nested.closeItem {ancestors : Ancestors} (h : ancestors.Nested) (column : Nat) :
    (ancestors.closeItem column).Nested :=
  h.sublist (List.dropWhile_sublist _)

/-! ## Closing is choosing -/

theorem chain_close {ancestors : Ancestors} (h : ancestors.Nested) (column : Nat) :
    (ancestors.close column).chain = ancestors.chain.filter fun a => a.column < column := by
  have hMono : ancestors.chain.Pairwise fun inner outer =>
      decide (column ≤ outer.column) = true → decide (column ≤ inner.column) = true := by
    refine h.imp ?_
    intro inner outer hEncloses hOuter
    simp only [decide_eq_true_eq] at hOuter ⊢
    rcases hEncloses with hLt | ⟨hEq, -, -⟩ <;> omega
  rw [Ancestors.close, dropWhile_eq_filter_not hMono]
  refine List.filter_congr ?_
  intro a _
  simp only [← decide_not, Nat.not_le]

theorem chain_closeItem {ancestors : Ancestors} (h : ancestors.Nested) (column : Nat) :
    (ancestors.closeItem column).chain = ancestors.chain.filter fun a =>
      a.column < column || a.column == column && !a.segment.isIndex := by
  have hMono : ancestors.chain.Pairwise fun inner outer =>
      (decide (column < outer.column) || column == outer.column && outer.segment.isIndex) =
          true →
        (decide (column < inner.column) || column == inner.column && inner.segment.isIndex) =
          true := by
    refine h.imp ?_
    intro inner outer hEncloses hOuter
    simp only [Bool.or_eq_true, Bool.and_eq_true, decide_eq_true_eq, beq_iff_eq] at hOuter ⊢
    rcases hOuter with hLt | ⟨hEq, hIndex⟩
    · rcases hEncloses with hLess | ⟨hSame, -, -⟩ <;> omega
    · rcases hEncloses with hLess | ⟨-, hKey, -⟩
      · omega
      · rw [hKey] at hIndex
        exact absurd hIndex (by simp)
  rw [Ancestors.closeItem, dropWhile_eq_filter_not hMono]
  refine List.filter_congr ?_
  intro a _
  rcases Nat.lt_trichotomy a.column column with hLt | hEq | hGt
  · simp [hLt, Nat.lt_asymm hLt, Nat.ne_of_gt hLt]
  · simp [hEq]
  · simp [hGt, Nat.lt_asymm hGt, Nat.ne_of_gt hGt]

/-- A key closes exactly what stands in its column or further right. -/
theorem outermostFirst_close {ancestors : Ancestors} (h : ancestors.Nested) (column : Nat) :
    (ancestors.close column).outermostFirst =
      ancestors.outermostFirst.filter fun a => a.column < column := by
  rw [outermostFirst, chain_close h, outermostFirst, List.filter_reverse]

/-- A marker closes exactly what stands further right, and the positions in its column. -/
theorem outermostFirst_closeItem {ancestors : Ancestors} (h : ancestors.Nested) (column : Nat) :
    (ancestors.closeItem column).outermostFirst = ancestors.outermostFirst.filter fun a =>
      a.column < column || a.column == column && !a.segment.isIndex := by
  rw [outermostFirst, chain_closeItem h, outermostFirst, List.filter_reverse]

@[simp] theorem outermostFirst_push (ancestors : Ancestors) (segment : Segment) (column : Nat) :
    (ancestors.push segment column).outermostFirst =
      ancestors.outermostFirst ++ [⟨segment, column⟩] := by
  simp [outermostFirst, push]

theorem encloses_of_mem_close {ancestors : Ancestors} (h : ancestors.Nested) {column : Nat}
    {segment : Segment} {a : Ancestor} (ha : a ∈ (ancestors.close column).chain) :
    a.Encloses ⟨segment, column⟩ := by
  rw [chain_close h, List.mem_filter] at ha
  exact Or.inl (by simpa using ha.2)

theorem encloses_of_mem_closeItem {ancestors : Ancestors} (h : ancestors.Nested) {column : Nat}
    (position : Nat) {a : Ancestor} (ha : a ∈ (ancestors.closeItem column).chain) :
    a.Encloses ⟨.index position, column⟩ := by
  rw [chain_closeItem h, List.mem_filter] at ha
  have hKept := ha.2
  simp only [Bool.or_eq_true, Bool.and_eq_true, decide_eq_true_eq, beq_iff_eq,
    Bool.not_eq_true'] at hKept
  rcases hKept with hLt | ⟨hEq, hKey⟩
  · exact Or.inl hLt
  · exact Or.inr ⟨hEq, hKey, rfl⟩

end Ancestors

/-! ## The shape along a scan -/

/-- The key behind a marker stands further right than the marker. -/
theorem Line.indent_lt_keyIndent {line : String} {item : ItemLine}
    (h : Line.classify line = .item item) : item.indent < item.keyIndent := by
  unfold Line.classify Line.ofChars at h
  split at h
  · exact absurd h (by simp)
  · dsimp only at h
    split at h
    · rw [Line.item.injEq] at h
      subst h
      unfold Line.itemOf
      dsimp only
      split <;> (dsimp only; omega)
    · split at h <;> exact absurd h (by simp)

namespace Scan.State

theorem nested_readMapping {state : State} (h : state.ancestors.Nested) (number : Nat)
    (raw : String) (line : MappingLine) :
    (state.readMapping number raw line).ancestors.Nested :=
  (h.close line.indent).push fun _ ha => Ancestors.encloses_of_mem_close h ha

theorem nested_readItem {state : State} (h : state.ancestors.Nested) (number : Nat)
    (raw : String) {line : ItemLine} (hKey : line.indent < line.keyIndent) :
    (state.readItem number raw line).ancestors.Nested := by
  have hParents := h.closeItem line.indent
  have hOuter : ∀ (position : Nat), ∀ a ∈ (state.ancestors.closeItem line.indent).chain,
      a.Encloses ⟨.index position, line.indent⟩ :=
    fun position _ ha => Ancestors.encloses_of_mem_closeItem h position ha
  unfold readItem
  dsimp only
  split
  · refine (hParents.push (hOuter _)).push ?_
    intro a ha
    rcases List.mem_cons.mp ha with rfl | ha
    · exact Or.inl hKey
    · -- What encloses the marker stands at its column or further left.
      rcases hOuter 0 a ha with hLt | ⟨hEq, -, -⟩
      · exact Or.inl (Nat.lt_trans hLt hKey)
      · exact Or.inl (lt_of_eq_of_lt hEq hKey)
  · exact hParents

end Scan.State

end YamlIndex
