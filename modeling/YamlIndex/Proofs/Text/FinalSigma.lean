import YamlIndex.Text.Lowercase
import Mathlib.Data.List.Infix

/-!
# What follows a final sigma

Lower case goes by characters but for the capital sigma, whose form depends on whether a word ends
behind it.  So text that is added at the end can change the form of what was there before: a sigma
that ended a word does not any more.  This is the only way, and it concerns a single character, the
last one that case does not ignore.  Its two forms are of the same length, so where the form changes
it is no longer in front of the new one.

## Main results

* `lower_append`: the form of a concatenation, each part between what is around it.
* `lowerBetween_eq_iff`: when the form of a text is the same in front of two others.
* `lower_prefix_iff`: the form of a text stays in front when no final sigma is lost.
-/

namespace YamlIndex.Text

/-- The lower-case form of a character between two texts; the one in front is given in reverse. -/
def lowerAt (before : List Char) (c : Char) (after : List Char) : List Char :=
  if c = capitalSigma then
    [Char.ofNat (if leadsToCased before && !leadsToCased after then 0x3c2 else 0x3c3)]
  else lowerChar c

/-- The lower-case form of a text between two others; the one in front is given in reverse. -/
def lowerBetween (before : List Char) : List Char → List Char → List Char
  | [], _ => []
  | c :: rest, after => lowerAt before c (rest ++ after) ++ lowerBetween (c :: before) rest after

/-- Whether the last character of a text that case does not ignore is a sigma that ends a word. -/
def endsInFinalSigma (s : List Char) : Bool :=
  match s.reverse.dropWhile fun c => caseIgnorableRanges.has c.toNat with
  | [] => false
  | c :: before => c == capitalSigma && leadsToCased before

/-- Whether a text ends in a final sigma that is none any more with the other text behind it. -/
def losesFinalSigma (s t : List Char) : Bool :=
  endsInFinalSigma s && leadsToCased t

/-! ## Forms between other texts -/

theorem lowerAfter_eq_lowerBetween (before s : List Char) :
    lowerAfter before s = lowerBetween before s [] := by
  induction s generalizing before with
  | nil => rfl
  | cons c rest ih => rw [lowerAfter, lowerBetween, ih, List.append_nil, lowerAt]

theorem lower_eq_lowerBetween (s : List Char) : lower s = lowerBetween [] s [] := by
  have hPlain (before t : List Char) (h : capitalSigma ∉ t) :
      lowerBetween before t [] = t.flatMap lowerChar := by
    induction t generalizing before with
    | nil => rfl
    | cons c rest ih =>
        rw [List.mem_cons, not_or] at h
        rw [lowerBetween, lowerAt, if_neg (Ne.symm h.1), ih _ h.2, List.flatMap_cons]
  rw [lower]
  split
  · exact lowerAfter_eq_lowerBetween [] s
  · rename_i hNot
    exact (hPlain [] s (by simpa using hNot)).symm

theorem lowerBetween_append (before s t after : List Char) :
    lowerBetween before (s ++ t) after =
      lowerBetween before s (t ++ after) ++ lowerBetween (s.reverse ++ before) t after := by
  induction s generalizing before with
  | nil => rfl
  | cons c rest ih =>
      rw [List.cons_append, lowerBetween, lowerBetween, ih, List.append_assoc, List.append_assoc,
        List.reverse_cons, List.append_assoc, List.singleton_append]

/-- The form of a concatenation is that of the parts, each between what is around it. -/
theorem lower_append (s t : List Char) :
    lower (s ++ t) = lowerBetween [] s t ++ lowerBetween s.reverse t [] := by
  rw [lower_eq_lowerBetween, lowerBetween_append, List.append_nil, List.append_nil]

theorem length_lowerAt (before : List Char) (c : Char) (after after' : List Char) :
    (lowerAt before c after).length = (lowerAt before c after').length := by
  rw [lowerAt, lowerAt]
  split <;> rfl

theorem length_lowerBetween (before s after after' : List Char) :
    (lowerBetween before s after).length = (lowerBetween before s after').length := by
  induction s generalizing before with
  | nil => rfl
  | cons c rest ih =>
      rw [lowerBetween, lowerBetween, List.length_append, List.length_append, ih,
        length_lowerAt before c (rest ++ after) (rest ++ after')]

/-! ## When the form changes -/

theorem leadsToCased_cons (c : Char) (s : List Char) :
    leadsToCased (c :: s) =
      if caseIgnorableRanges.has c.toNat then leadsToCased s else casedRanges.has c.toNat := by
  by_cases hIgnored : caseIgnorableRanges.has c.toNat = true
  · simp [leadsToCased, hIgnored]
  · simp [leadsToCased, hIgnored]

theorem endsInFinalSigma_concat (s : List Char) (c : Char) :
    endsInFinalSigma (s ++ [c]) =
      if caseIgnorableRanges.has c.toNat then endsInFinalSigma s
      else c == capitalSigma && leadsToCased s.reverse := by
  by_cases hIgnored : caseIgnorableRanges.has c.toNat = true
  · simp [endsInFinalSigma, hIgnored]
  · simp [endsInFinalSigma, hIgnored]

/-- A sigma has another form before another text when a word goes on behind it in one of them. -/
theorem lowerAt_eq_iff (before : List Char) (c : Char) (after after' : List Char) :
    lowerAt before c after = lowerAt before c after' ↔
      ¬((c == capitalSigma && leadsToCased before) = true ∧
        leadsToCased after ≠ leadsToCased after') := by
  rw [lowerAt, lowerAt]
  by_cases hc : c = capitalSigma
  · cases leadsToCased before <;> cases leadsToCased after <;> cases leadsToCased after' <;>
      simp [hc]
  · simp [hc]

/-- The form of a text depends on what follows only through a sigma at its end. -/
theorem lowerBetween_eq_iff (s after after' : List Char) :
    lowerBetween [] s after = lowerBetween [] s after' ↔
      ¬(endsInFinalSigma s = true ∧ leadsToCased after ≠ leadsToCased after') := by
  -- Going from the end, what follows grows by the last character on both sides.
  induction s using List.reverseRecOn generalizing after after' with
  | nil => simp [lowerBetween, endsInFinalSigma]
  | append_singleton s c ih =>
      have hLast (t : List Char) : lowerBetween [] (s ++ [c]) t =
          lowerBetween [] s (c :: t) ++ lowerAt s.reverse c t := by
        rw [lowerBetween_append, lowerBetween, lowerBetween, List.append_nil, List.append_nil]
        rfl
      have hBoth : lowerBetween [] (s ++ [c]) after = lowerBetween [] (s ++ [c]) after' ↔
          lowerBetween [] s (c :: after) = lowerBetween [] s (c :: after') ∧
            lowerAt s.reverse c after = lowerAt s.reverse c after' := by
        rw [hLast, hLast]
        constructor
        · exact fun h => List.append_inj h (length_lowerBetween [] s _ _)
        · exact fun h => by rw [h.1, h.2]
      rw [hBoth, ih, lowerAt_eq_iff, leadsToCased_cons, leadsToCased_cons, endsInFinalSigma_concat]
      by_cases hIgnored : caseIgnorableRanges.has c.toNat = true
      · -- A sigma is not ignored, so what stands at the end is found further in front.
        have hNot : c ≠ capitalSigma := by
          rintro rfl
          exact absurd hIgnored (by decide +kernel)
        simp [hIgnored, hNot]
      · simp [hIgnored]

/-- The form of a text stays in front of that of a longer one when no final sigma is lost. -/
theorem lower_prefix_iff (s t : List Char) :
    lower s <+: lower (s ++ t) ↔ losesFinalSigma s t = false := by
  have hSame : lowerBetween [] s [] = lowerBetween [] s t ↔ losesFinalSigma s t = false := by
    rw [lowerBetween_eq_iff, losesFinalSigma]
    cases endsInFinalSigma s <;> cases leadsToCased t <;> simp [leadsToCased]
  rw [lower_append, lower_eq_lowerBetween, ← hSame]
  constructor
  · intro hPrefix
    have hShort := List.prefix_of_prefix_length_le hPrefix (List.prefix_append _ _)
      (Nat.le_of_eq (length_lowerBetween [] s [] t))
    exact hShort.eq_of_length (length_lowerBetween [] s [] t)
  · intro hEq
    rw [hEq]
    exact List.prefix_append _ _

/-- What begins with the form of a longer text begins with that of the shorter one when no final
sigma is lost, and only then. -/
theorem lower_prefix_iff_of_prefix {s t form : List Char} (h : lower (s ++ t) <+: form) :
    lower s <+: form ↔ losesFinalSigma s t = false := by
  rw [← lower_prefix_iff]
  constructor
  · intro hPrefix
    refine List.prefix_of_prefix_length_le hPrefix h ?_
    rw [lower_append, lower_eq_lowerBetween, List.length_append, length_lowerBetween [] s [] t]
    exact Nat.le_add_right _ _
  · exact fun hPrefix => hPrefix.trans h

end YamlIndex.Text
