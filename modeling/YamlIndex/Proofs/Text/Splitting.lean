import YamlIndex.Text.Blank
import Mathlib.Data.List.Basic

/-!
# Texts between two occurrences of a character

Splitting a text at a character and putting the character between pieces undo each other, as long as
no piece has the character in it, and the pieces of a text never have.  A text that is cut at one
occurrence is split on both sides of it on its own.

## Main results

* `splitAll_append_cons`: splitting goes part by part.
* `splitAll_intercalate`, `intercalate_splitAll`: splitting and putting together.
-/

namespace YamlIndex.Text

theorem splitAll_cons_self (c : Char) (s : List Char) :
    splitAll c (c :: s) = [] :: splitAll c s := by
  rw [splitAll, List.foldr_cons, ← splitAll, if_pos rfl]

theorem splitAll_cons_of_ne {c d : Char} {rest first : List Char} {others : List (List Char)}
    (h : d ≠ c) (hRest : splitAll c rest = first :: others) :
    splitAll c (d :: rest) = (d :: first) :: others := by
  rw [splitAll, List.foldr_cons, ← splitAll, if_neg h, hRest]

/-- What stands in front of the first occurrence belongs to the first piece. -/
theorem splitAll_append_of_notMem {c : Char} {front rest first : List Char}
    {others : List (List Char)} (h : c ∉ front) (hRest : splitAll c rest = first :: others) :
    splitAll c (front ++ rest) = (front ++ first) :: others := by
  induction front with
  | nil => exact hRest
  | cons d front ih =>
      have hd : d ≠ c := fun hEq => h (hEq ▸ List.mem_cons_self)
      exact splitAll_cons_of_ne hd (ih fun hMem => h (List.mem_cons_of_mem _ hMem))

/-- Splitting a text at one occurrence of the character splits both parts on their own. -/
theorem splitAll_append_cons (c : Char) (front rest : List Char) :
    splitAll c (front ++ c :: rest) = splitAll c front ++ splitAll c rest := by
  induction front with
  | nil => exact splitAll_cons_self c rest
  | cons d front ih =>
      by_cases hd : d = c
      · rw [hd, List.cons_append, splitAll_cons_self, splitAll_cons_self, ih, List.cons_append]
      · obtain ⟨first, others, hFront⟩ := List.exists_cons_of_ne_nil (splitAll_ne_nil c front)
        rw [hFront, List.cons_append] at ih
        rw [List.cons_append, splitAll_cons_of_ne hd ih, splitAll_cons_of_ne hd hFront,
          List.cons_append]

/-- Pieces without the character that stands between them are found again. -/
theorem splitAll_intercalate {c : Char} {pieces : List (List Char)} (hNe : pieces ≠ [])
    (h : ∀ piece ∈ pieces, c ∉ piece) : splitAll c ([c].intercalate pieces) = pieces := by
  induction pieces with
  | nil => exact absurd rfl hNe
  | cons piece rest ih =>
      have hPiece : c ∉ piece := h piece List.mem_cons_self
      cases rest with
      | nil =>
          have hSplit := splitAll_append_of_notMem hPiece (show splitAll c [] = [] :: [] from rfl)
          rw [List.append_nil] at hSplit
          simpa using hSplit
      | cons other rest =>
          have hRest := ih (by simp) fun later hLater => h later (List.mem_cons_of_mem _ hLater)
          rw [List.intercalate_cons_cons, List.append_assoc, List.singleton_append,
            splitAll_append_of_notMem hPiece (splitAll_cons_self c _), hRest, List.append_nil]

/-- The pieces of a text make the text again. -/
theorem intercalate_splitAll (c : Char) (s : List Char) : [c].intercalate (splitAll c s) = s := by
  induction s with
  | nil => rfl
  | cons d rest ih =>
      obtain ⟨first, others, hRest⟩ := List.exists_cons_of_ne_nil (splitAll_ne_nil c rest)
      rw [hRest] at ih
      by_cases hd : d = c
      · rw [hd, splitAll_cons_self, hRest, List.intercalate_cons_cons, ih]
        rfl
      · rw [splitAll_cons_of_ne hd hRest, ← ih]
        cases others with
        | nil => simp
        | cons other others =>
            rw [List.intercalate_cons_cons, List.intercalate_cons_cons]
            rfl

/-- A piece is made of characters of the text, and the one that it was split at is not among
them. -/
theorem mem_splitAll {c d : Char} {s piece : List Char} (hPiece : piece ∈ splitAll c s)
    (hd : d ∈ piece) : d ∈ s ∧ d ≠ c := by
  induction s generalizing piece with
  | nil =>
      rw [List.mem_singleton.mp hPiece] at hd
      exact absurd hd List.not_mem_nil
  | cons e rest ih =>
      have hRestOf {other : List Char} (hOther : other ∈ splitAll c rest) (hIn : d ∈ other) :
          d ∈ e :: rest ∧ d ≠ c :=
        (ih hOther hIn).imp_left (List.mem_cons_of_mem e)
      by_cases he : e = c
      · rw [he, splitAll_cons_self] at hPiece
        rcases List.mem_cons.mp hPiece with rfl | hPiece
        · exact absurd hd List.not_mem_nil
        · exact hRestOf hPiece hd
      · obtain ⟨first, others, hRest⟩ := List.exists_cons_of_ne_nil (splitAll_ne_nil c rest)
        rw [splitAll_cons_of_ne he hRest] at hPiece
        rw [hRest] at hRestOf
        rcases List.mem_cons.mp hPiece with rfl | hPiece
        · rcases List.mem_cons.mp hd with rfl | hd
          · exact ⟨List.mem_cons_self, he⟩
          · exact hRestOf List.mem_cons_self hd
        · exact hRestOf (List.mem_cons_of_mem _ hPiece) hd

theorem notMem_of_mem_splitAll {c : Char} {s piece : List Char} (h : piece ∈ splitAll c s) :
    c ∉ piece :=
  fun hMem => (mem_splitAll h hMem).2 rfl

end YamlIndex.Text
