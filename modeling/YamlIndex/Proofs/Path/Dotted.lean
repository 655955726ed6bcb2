import YamlIndex.Path
import YamlIndex.Proofs.Text.Splitting

/-!
# Dotted paths that are read back

The text of a path is its segments with dots between them, and it is read back from one dot to the
next.  So long as no key has a dot in it, each segment is read back for itself: blanks around it are
lost, a segment of blanks is lost altogether, and a key that is a word has become a position.

## Main results

* `Path.ofDotted_dotted`: what the text of a path is read back as.
* `Path.ofDotted_dotted_of_legible`: a path of legible keys is read back as it was.
-/

namespace YamlIndex

namespace Text

/-- A text without blanks is trimmed. -/
theorem trim_of_forall {s : List Char} (h : ∀ c ∈ s, isBlank c = false) : trim s = s := by
  have hFront : ∀ t : List Char, (∀ c ∈ t, isBlank c = false) → t.dropWhile isBlank = t := by
    intro t ht
    cases t with
    | nil => rfl
    | cons c rest => rw [List.dropWhile_cons_of_neg (by simp [ht c List.mem_cons_self])]
  rw [trim, trimStart, hFront s h, trimEnd,
    hFront s.reverse fun c hc => h c (List.mem_reverse.mp hc), List.reverse_reverse]

/-! ## Decimal texts -/

theorem isDigit_of_mem_toDigits {n : Nat} {c : Char} (h : c ∈ Nat.toDigits 10 n) :
    isDigit c = true := by
  have hDigit := Nat.isDigit_of_mem_toDigits (by decide) (by decide) h
  rw [Char.isDigit] at hDigit
  exact hDigit

theorem isBlank_of_isDigit {c : Char} (h : isDigit c = true) : isBlank c = false := by
  rw [isDigit, Bool.and_eq_true, decide_eq_true_eq, decide_eq_true_eq] at h
  have hLow : 48 ≤ c.toNat := h.1
  have hHigh : c.toNat ≤ 57 := h.2
  simp [isBlank]
  omega

/-- The decimal text of a number denotes it, as long as it is a word. -/
theorem word?_toDigits {n : Nat} (h : n ≤ maxWord) : word? (Nat.toDigits 10 n) = some n := by
  have hValue : natOf (Nat.toDigits 10 n) = n := Nat.ofDigitChars_toDigits (by decide) (by decide)
  have hDigits : (Nat.toDigits 10 n).all isDigit = true :=
    List.all_eq_true.mpr fun _ => isDigit_of_mem_toDigits
  have hSome : (Nat.toDigits 10 n).isEmpty = false :=
    List.isEmpty_eq_false_iff.mpr Nat.toDigits_ne_nil
  rw [word?, hValue, hDigits, hSome]
  simp [h]

end Text

namespace Segment

/-- What a segment is read back as, when its text has no dot: nothing when it is blank. -/
def reread? (segment : Segment) : Option Segment :=
  let text := Text.trim segment.text.toList
  if text.isEmpty then none else some (ofText text)

/-- A position that is a word is read back as it was. -/
theorem reread?_index {n : Nat} (h : n ≤ Text.maxWord) : (index n).reread? = some (index n) := by
  have hText : (index n).text.toList = Nat.toDigits 10 n := String.toList_ofList
  have hTrim : Text.trim (Nat.toDigits 10 n) = Nat.toDigits 10 n :=
    Text.trim_of_forall fun c hc => Text.isBlank_of_isDigit (Text.isDigit_of_mem_toDigits hc)
  rw [reread?, hText, hTrim, if_neg (by simp [Nat.toDigits_ne_nil]), ofText, Text.word?_toDigits h]

/-- A key is read back as it was just if it is not empty, has no blanks around it and is no word. -/
theorem reread?_key_iff {name : String} :
    (key name).reread? = some (key name) ↔
      name ≠ "" ∧ Text.trimmed name = name ∧ Text.word? name.toList = none := by
  rw [reread?, show (key name).text = name from rfl]
  constructor
  · intro hSame
    split at hSame
    · exact absurd hSame (by simp)
    · rename_i hNe
      rw [Option.some.injEq, ofText] at hSame
      cases hWord : Text.word? (Text.trim name.toList) with
      | some position =>
          rw [hWord] at hSame
          exact absurd hSame (by simp)
      | none =>
          rw [hWord] at hSame
          have hTrim : Text.trimmed name = name := key.inj hSame
          have hList : Text.trim name.toList = name.toList := by
            rw [← String.toList_ofList (l := Text.trim name.toList), ← Text.trimmed, hTrim]
          refine ⟨?_, hTrim, hList ▸ hWord⟩
          rintro rfl
          exact hNe rfl
  · rintro ⟨hNe, hTrim, hWord⟩
    have hList : Text.trim name.toList = name.toList := by
      rw [← String.toList_ofList (l := Text.trim name.toList), ← Text.trimmed, hTrim]
    rw [hList, if_neg (by simpa using hNe), ofText, hWord, String.ofList_toList]

/-- The text of a position has no dot. -/
theorem dot_notMem_index (n : Nat) : '.' ∉ (index n).text.toList := by
  rw [show (index n).text.toList = Nat.toDigits 10 n from String.toList_ofList]
  intro hDot
  exact absurd (Text.isDigit_of_mem_toDigits hDot) (by decide)

end Segment

/-- Whether a key is read back from the text of a path as it was: it has no dot, is not empty, has
no blanks around it and is no word. -/
def IsLegibleKey (name : String) : Prop :=
  '.' ∉ name.toList ∧ name ≠ "" ∧ Text.trimmed name = name ∧ Text.word? name.toList = none

instance (name : String) : Decidable (IsLegibleKey name) :=
  inferInstanceAs (Decidable (_ ∧ _ ∧ _ ∧ _))

namespace Path

theorem filterMap_reread? (path : Path) :
    (((path.map fun segment => segment.text.toList).map Text.trim).filter
      fun s => !s.isEmpty).map Segment.ofText = path.filterMap Segment.reread? := by
  induction path with
  | nil => rfl
  | cons segment rest ih =>
      rw [List.map_cons, List.map_cons, List.filterMap_cons, Segment.reread?]
      cases hEmpty : (Text.trim segment.text.toList).isEmpty with
      | true => rw [List.filter_cons_of_neg (by simp [hEmpty]), ih, if_pos rfl]
      | false =>
          rw [List.filter_cons_of_pos (by simp [hEmpty]), List.map_cons, ih]
          rfl

/-- The text of a path without dots in its keys is read back segment by segment. -/
theorem ofDotted_dotted {path : Path} (h : ∀ name, .key name ∈ path → '.' ∉ name.toList) :
    ofDotted path.dotted = path.filterMap Segment.reread? := by
  have hDots : ∀ piece ∈ path.map fun segment => segment.text.toList, '.' ∉ piece := by
    intro piece hPiece
    obtain ⟨segment, hSegment, rfl⟩ := List.mem_map.mp hPiece
    cases segment with
    | key name => exact h name hSegment
    | index n => exact Segment.dot_notMem_index n
  cases path with
  | nil => rfl
  | cons segment rest =>
      have hText : (dotted (segment :: rest)).toList =
          ['.'].intercalate ((segment :: rest).map fun segment => segment.text.toList) := by
        rw [dotted, String.toList_intercalate, List.map_map]
        rfl
      rw [ofDotted, hText, Text.splitAll_intercalate (by simp) hDots,
        filterMap_reread?]

/-- A path of legible keys, and of positions that are words, is read back as it was. -/
theorem ofDotted_dotted_of_legible {path : Path}
    (hKeys : ∀ name, .key name ∈ path → IsLegibleKey name)
    (hPositions : ∀ n, .index n ∈ path → n ≤ Text.maxWord) : ofDotted path.dotted = path := by
  have hSame : ∀ segment ∈ path, segment.reread? = some segment := by
    intro segment hSegment
    cases segment with
    | key name => exact Segment.reread?_key_iff.mpr (hKeys name hSegment).2
    | index n => exact Segment.reread?_index (hPositions n hSegment)
  rw [ofDotted_dotted fun name hName => (hKeys name hName).1]
  calc
    path.filterMap Segment.reread? = path.filterMap some := List.filterMap_congr hSame
    _ = path := List.filterMap_some

end Path

end YamlIndex
