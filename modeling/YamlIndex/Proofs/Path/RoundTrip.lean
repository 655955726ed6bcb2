import YamlIndex.Proofs.Text.Trimming
import YamlIndex.Proofs.Path.Dotted

/-!
# Which paths survive their own text

A query is cut at its dots, the pieces are trimmed and the empty ones vanish, and what is left of a
piece is a position if it is a word.  So whatever the query was, no segment that is read from it can
be lost or change when it is written and read once more: reading gives *legible* segments only.

That settles the other direction too.  A path that is read back as it was has been read from a text,
so each of its segments is legible; and a path of legible segments is read back as it was.

## Main results

* `Path.isLegible_of_mem_ofDotted`: a query is read into legible segments.
* `Path.ofDotted_dotted_iff`: just the paths of legible segments are read back as they were.
-/

namespace YamlIndex

namespace Text

/-- Whether a text has only ASCII digits in it and denotes a word. -/
def IsWord (s : List Char) : Prop :=
  s.all isDigit = true ∧ natOf s ≤ maxWord

instance (s : List Char) : Decidable (IsWord s) :=
  inferInstanceAs (Decidable (_ ∧ _))

theorem word?_eq_ite (s : List Char) (hNe : s ≠ []) :
    word? s = if IsWord s then some (natOf s) else none := by
  have hEmpty : s.isEmpty = false := by simpa using hNe
  unfold word? IsWord
  by_cases h : s.all isDigit = true <;> simp [hEmpty, h]

end Text

namespace Segment

/-- Whether a segment keeps its meaning between two dots: a key has text without a dot, without
blanks around it, and does not read as a position; a position is a word. -/
def IsLegible : Segment → Prop
  | key name => name ≠ "" ∧ '.' ∉ name.toList ∧ Text.trimmed name = name ∧
      ¬ Text.IsWord name.toList
  | index position => position ≤ Text.maxWord

instance : DecidablePred IsLegible
  | key name => inferInstanceAs (Decidable (name ≠ "" ∧ '.' ∉ name.toList ∧
      Text.trimmed name = name ∧ ¬ Text.IsWord name.toList))
  | index position => inferInstanceAs (Decidable (position ≤ Text.maxWord))

theorem isLegible_key_iff {name : String} : (key name).IsLegible ↔ IsLegibleKey name := by
  show (name ≠ "" ∧ '.' ∉ name.toList ∧ Text.trimmed name = name ∧ ¬ Text.IsWord name.toList) ↔
    IsLegibleKey name
  unfold IsLegibleKey
  by_cases hNe : name = ""
  · simp [hNe]
  · have hWord := Text.word?_eq_ite name.toList (by simpa using hNe)
    by_cases h : Text.IsWord name.toList <;> simp [hNe, hWord, h]

/-- What stands between two dots, trimmed and not empty, is read as a legible segment. -/
theorem isLegible_ofText {s : List Char} (hNe : s ≠ []) (hDot : '.' ∉ s)
    (hTrim : Text.trim s = s) : (ofText s).IsLegible := by
  have hRead := Text.word?_eq_ite s hNe
  by_cases hWord : Text.IsWord s
  · rw [ofText, hRead, if_pos hWord]
    exact hWord.2
  · rw [ofText, hRead, if_neg hWord]
    show String.ofList s ≠ "" ∧ '.' ∉ (String.ofList s).toList ∧
      Text.trimmed (String.ofList s) = String.ofList s ∧ ¬ Text.IsWord (String.ofList s).toList
    rw [Text.trimmed, String.toList_ofList, hTrim]
    exact ⟨by simpa using hNe, hDot, rfl, hWord⟩

end Segment

namespace Path

theorem isLegible_of_mem_ofDotted {query : String} {segment : Segment}
    (h : segment ∈ ofDotted query) : segment.IsLegible := by
  obtain ⟨text, hText, rfl⟩ := List.mem_map.mp h
  obtain ⟨hPiece, hNe⟩ := List.mem_filter.mp hText
  obtain ⟨piece, hSplit, rfl⟩ := List.mem_map.mp hPiece
  have hDot : '.' ∉ Text.trim piece :=
    fun hMem => Text.notMem_of_mem_splitAll hSplit (Text.mem_of_mem_trim hMem)
  exact Segment.isLegible_ofText (by simpa using hNe) hDot (Text.trim_trim piece)

theorem ofDotted_dotted_iff {path : Path} :
    ofDotted path.dotted = path ↔ ∀ segment ∈ path, segment.IsLegible := by
  constructor
  · intro hSame segment hSegment
    rw [← hSame] at hSegment
    exact isLegible_of_mem_ofDotted hSegment
  · intro hLegible
    apply ofDotted_dotted_of_legible
    · intro name hName
      exact Segment.isLegible_key_iff.mp (hLegible _ hName)
    · intro n hPosition
      exact hLegible _ hPosition

/-- **A path is read back from its text as it was just if each segment is legible**, and a query is
read into such a path, so that its text is read again as the same path. -/
theorem dotted_round_trip :
    (∀ path : Path, ofDotted path.dotted = path ↔ ∀ segment ∈ path, segment.IsLegible) ∧
      ∀ query : String, (∀ segment ∈ ofDotted query, segment.IsLegible) ∧
        ofDotted (ofDotted query).dotted = ofDotted query := by
  refine ⟨fun path => ofDotted_dotted_iff, fun query => ?_⟩
  have hLegible : ∀ segment ∈ ofDotted query, segment.IsLegible :=
    fun segment => isLegible_of_mem_ofDotted
  exact ⟨hLegible, ofDotted_dotted_iff.mpr hLegible⟩

/-- Zeros in front do not keep a number from being a position; a sign, a value above the largest
word, or a digit of another script do. -/
example : ¬ (Segment.key "007").IsLegible ∧ (Segment.key "+7").IsLegible ∧
    ¬ (Segment.key "18446744073709551615").IsLegible ∧
    (Segment.key "18446744073709551616").IsLegible ∧ (Segment.key "٣").IsLegible := by
  decide

end Path

end YamlIndex
