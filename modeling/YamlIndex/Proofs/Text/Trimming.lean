import YamlIndex.Proofs.Layout
import Mathlib.Data.List.DropRight

/-!
# Trimmed texts

Trimming takes blanks from both ends of a text and nothing else, so a trimmed text has no blank at
either end and is trimmed already.

## Main results

* `trim_trim`: a trimmed text is trimmed already.
* `head?_trim`: trimming the end of a text does not reach what the text begins with.
* `isBlank_getLast_trim`: a trimmed text does not end in a blank.
-/

namespace YamlIndex

namespace Text

theorem trimEnd_eq_rdropWhile (s : List Char) : trimEnd s = s.rdropWhile isBlank := rfl

theorem isBlank_head_trimStart {s : List Char} {c : Char} {rest : List Char}
    (h : trimStart s = c :: rest) : isBlank c = false := by
  have hNot := List.head?_dropWhile_not isBlank s
  rw [← trimStart, h] at hNot
  exact hNot

theorem trim_prefix_trimStart (s : List Char) : trim s <+: trimStart s :=
  List.rdropWhile_prefix isBlank (trimStart s)

theorem mem_of_mem_trim {s : List Char} {c : Char} (h : c ∈ trim s) : c ∈ s :=
  (List.dropWhile_suffix isBlank).subset ((trim_prefix_trimStart s).subset h)

/-- Trimming the end of a text does not reach its first character other than a blank. -/
theorem head?_trim (s : List Char) : (trim s).head? = (trimStart s).head? := by
  cases hStart : trimStart s with
  | nil => simp [trim, hStart, trimEnd]
  | cons c rest =>
      have hBlank : isBlank c = false := isBlank_head_trimStart hStart
      have hNe : trim s ≠ [] := by
        intro hNil
        rw [trim, trimEnd_eq_rdropWhile, List.rdropWhile_eq_nil_iff] at hNil
        have hAll : isBlank c = true := hNil c (by simp [hStart])
        simp [hBlank] at hAll
      obtain ⟨tail, hTail⟩ := trim_prefix_trimStart s
      rw [← List.head?_append_of_ne_nil _ hNe, hTail, hStart]

/-- A trimmed text does not begin with a blank. -/
theorem trimStart_trim (s : List Char) : trimStart (trim s) = trim s := by
  obtain ⟨tail, hTail⟩ := trim_prefix_trimStart s
  cases hTrim : trim s with
  | nil => rfl
  | cons c t =>
      have hStart : trimStart s = c :: (t ++ tail) := by
        rw [← hTail, hTrim, List.cons_append]
      exact trimStart_cons (isBlank_head_trimStart hStart) t

theorem trim_trim (s : List Char) : trim (trim s) = trim s := by
  rw [trim, trimStart_trim, trimEnd_eq_rdropWhile, trim, trimEnd_eq_rdropWhile,
    List.rdropWhile_idempotent]

/-- A blank in front of a trimmed text is all there is to trim. -/
theorem trim_cons_trim {c : Char} (hc : isBlank c = true) (s : List Char) :
    trim (c :: trim s) = trim s := by
  have hStart : trimStart (c :: trim s) = trimStart (trim s) := by
    rw [trimStart, List.dropWhile_cons_of_pos hc, trimStart]
  calc trim (c :: trim s) = trim (trim s) := by rw [trim, hStart, trim.eq_1 (trim s)]
    _ = trim s := trim_trim s

/-- Only characters of the given kind are stripped. -/
theorem mem_stripBoth {p : Char → Bool} {s : List Char} {c : Char} (h : c ∈ s) (hc : p c = false) :
    c ∈ stripBoth p s := by
  have hDrop : ∀ {t : List Char}, c ∈ t → c ∈ t.dropWhile p := by
    intro t ht
    rw [← List.takeWhile_append_dropWhile (p := p) (l := t), List.mem_append] at ht
    rcases ht with hTake | hRest
    · have hTrue : p c = true := List.mem_takeWhile_imp hTake
      rw [hc] at hTrue
      exact absurd hTrue (by simp)
    · exact hRest
  rw [stripBoth, List.mem_reverse]
  exact hDrop (List.mem_reverse.mpr (hDrop h))

theorem mem_trim {s : List Char} {c : Char} (h : c ∈ s) (hc : isBlank c = false) : c ∈ trim s :=
  mem_stripBoth h hc

/-- A trimmed text does not end in a blank. -/
theorem isBlank_getLast_trim {s : List Char} {c : Char} (h : (trim s).getLast? = some c) :
    isBlank c = false := by
  have hNe : trim s ≠ [] := by
    intro hNil
    rw [hNil] at h
    exact absurd h (by simp)
  have hLast : ¬ isBlank ((trim s).getLast hNe) = true :=
    List.rdropWhile_last_not isBlank (trimStart s) hNe
  rw [List.getLast?_eq_some_getLast hNe] at h
  rw [← Option.some.inj h]
  simpa using hLast

end Text

end YamlIndex
