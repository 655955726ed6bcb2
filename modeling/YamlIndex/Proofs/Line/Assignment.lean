import YamlIndex.Proofs.Line.Splitting

/-!
# A line with another value

A line is read in two ways: the scan classifies it, an edit cuts it behind the colon of its key.
Both look for the same colon, and nothing behind that colon has a say in where it is, in the column
or in the key.  So a line that is cut and put together again with another value is classified as
before, but for the value.

## Main results

* `Line.IsBody.assign`, `Line.IsCut.assign`: a line has the same front when another text stands
  behind the colon of its key.
* `Line.assignment?_assign`: a head that is put together with another value is cut off again.
* `Line.assignment?_of_mapping`: the cut of a mapping line gives its value.
* `Line.classify_assign`: a mapping line with another value behind its colon.
-/

namespace YamlIndex

namespace Line

/-! ## What stands behind the colon -/

/-- Whether a text opens with a marker is decided by its first two characters. -/
theorem afterMarker?_append {c : Char} {before after : List Char}
    (h : afterMarker? (c :: (before ++ ':' :: after)) = none) (other : List Char) :
    afterMarker? (c :: (before ++ ':' :: other)) = none := by
  by_cases hc : c = '-'
  · subst hc
    cases before with
    | nil =>
        have hColon : Text.isBlank ':' = false := by decide
        simp [afterMarker?, hColon]
    | cons d before =>
        cases hd : Text.isBlank d with
        | true => exact absurd h (by simp [afterMarker?, hd])
        | false => simp [afterMarker?, hd]
  · simp [afterMarker?, hc]

/-- Behind the colon a trimmed text is the value, unless it is empty or a comment. -/
theorem value?_trim {s : List Char} (h : ¬ IsAside s) :
    value? (' ' :: Text.trim s) = some (String.ofList (Text.trim s)) := by
  have hTrim : Text.trim (' ' :: Text.trim s) = Text.trim s := Text.trim_cons_trim (by decide) s
  have hText : ¬ IsAside (' ' :: Text.trim s) := by
    rw [IsAside, hTrim]
    exact h
  rw [value?_of_not_isAside hText, hTrim]

theorem trim_of_value? {s : List Char} {value : String} (h : value? s = some value) :
    String.ofList (Text.trim s) = value := by
  cases hasValue_iff.mpr h with
  | present => rfl

/-! ## Another text behind the colon -/

section Assign

variable {s lead gap front before after : List Char}

theorem HasKey.assign (h : HasKey (before ++ ':' :: after) before after) (other : List Char) :
    HasKey (before ++ ':' :: other) before other :=
  ⟨rfl, h.first, h.named⟩

theorem IsIndented.assign (h : IsIndented s lead (before ++ ':' :: after)) (other : List Char) :
    IsIndented (lead ++ (before ++ ':' :: other)) lead (before ++ ':' :: other) := by
  refine ⟨rfl, h.blanks, ?_⟩
  cases before with
  | nil => exact h.stops
  | cons c before => exact h.stops

theorem IsItem.assign (h : IsItem s lead gap (before ++ ':' :: after)) (other : List Char) :
    IsItem (lead ++ '-' :: (gap ++ (before ++ ':' :: other))) lead gap (before ++ ':' :: other) :=
  ⟨⟨rfl, h.marker.blanks, h.marker.stops⟩, h.behind.assign other, fun _ => h.apart (by simp)⟩

/-- The marker of an item would be found by the first two characters behind the blanks. -/
theorem not_isItem_assign (hFront : IsIndented s lead (before ++ ':' :: after))
    (hItem : ∀ lead gap text, ¬ IsItem s lead gap text) (hNe : before ≠ []) (other : List Char) :
    ∀ first gap text, ¬ IsItem (lead ++ (before ++ ':' :: other)) first gap text := by
  intro first gap text hFound
  obtain ⟨hDash, hAfter, -⟩ := isItem_iff.mp hFound
  have hMarker := hFront.afterMarker?_eq_none hItem
  obtain ⟨c, rest, rfl⟩ := List.exists_cons_of_ne_nil hNe
  rw [← (isIndented_iff.mp hDash).2, (isIndented_iff.mp (hFront.assign other)).2, List.cons_append,
    afterMarker?_append hMarker other] at hAfter
  exact absurd hAfter (by simp)

/-- Another text behind the colon of its key leaves the front of a line as it is. -/
theorem IsBody.assign (h : IsBody s front (before ++ ':' :: after)) (hNe : before ≠ [])
    (other : List Char) :
    IsBody (front ++ (before ++ ':' :: other)) front (before ++ ':' :: other) := by
  cases h with
  | @item lead gap _ hItem =>
      have hText : lead ++ '-' :: gap ++ (before ++ ':' :: other) =
          lead ++ '-' :: (gap ++ (before ++ ':' :: other)) := by simp
      rw [hText]
      exact .item (hItem.assign other)
  | plain hItem hFront =>
      exact .plain (not_isItem_assign hFront hItem hNe other) (hFront.assign other)

end Assign

theorem HasKey.before_ne_nil {s before after : List Char} (h : HasKey s before after) :
    before ≠ [] := by
  rintro rfl
  exact h.named rfl

/-- A line that is cut begins with its head. -/
theorem prefix_of_assignment? {line head value : String}
    (h : assignment? line = some (head, value)) : head.toList <+: line.toList := by
  obtain ⟨front, before, after, hBody, -, rfl, -⟩ := exists_of_assignment? h
  refine ⟨after, ?_⟩
  rw [String.toList_ofList, hBody.text]
  simp

/-- A head that is put together with another value is cut off in the same place again. -/
theorem assignment?_assign {line head value : String} (h : assignment? line = some (head, value))
    (answer : String) :
    assignment? (head ++ " " ++ Text.trimmed answer) = some (head, Text.trimmed answer) := by
  obtain ⟨front, before, after, hBody, hKey, rfl, -⟩ := exists_of_assignment? h
  have hText : (String.ofList (front ++ before ++ [':']) ++ " " ++ Text.trimmed answer).toList =
      front ++ (before ++ ':' :: (' ' :: Text.trim answer.toList)) := by
    rw [String.toList_append, String.toList_append, String.toList_ofList, Text.trimmed,
      String.toList_ofList]
    simp
  have hCut := (hBody.assign hKey.before_ne_nil _).assignmentOf_of_hasKey
    (hKey.assign (' ' :: Text.trim answer.toList))
  rw [assignment?, hText, hCut, Text.trim_cons_trim (by decide)]
  rfl

/-! ## Cutting a mapping line -/

/-- A mapping line is made of blanks, a text that holds the key, a colon, and a text that holds the
value. -/
structure IsCut (s lead before after : List Char) : Prop where
  notAside : ¬ IsAside s
  noItem : ∀ lead gap text, ¬ IsItem s lead gap text
  front : IsIndented s lead (before ++ ':' :: after)
  key : HasKey (before ++ ':' :: after) before after

theorem exists_isCut {line : String} {mapping : MappingLine}
    (h : classify line = .mapping mapping) :
    ∃ lead before after, IsCut line.toList lead before after ∧
      mapping = ⟨lead.length, String.ofList (unquote (Text.trim before)), value? after⟩ := by
  have hReads : Reads line.toList (.mapping mapping) := h ▸ reads_ofChars line.toList
  cases hReads with
  | @mapping lead before after value hAside hItem hFront hKey hValue =>
      exact ⟨lead, before, after, ⟨hAside, hItem, hFront, hKey⟩, by rw [hasValue_iff.mp hValue]⟩

section Cut

variable {s lead before after : List Char}

theorem IsCut.assignmentOf (h : IsCut s lead before after) :
    assignmentOf s = some (lead ++ before ++ [':'], Text.trim after) :=
  (IsBody.plain h.noItem h.front).assignmentOf_of_hasKey h.key

theorem IsCut.ofChars (h : IsCut s lead before after) :
    ofChars s =
      .mapping ⟨lead.length, String.ofList (unquote (Text.trim before)), value? after⟩ :=
  Reads.ofChars_eq (.mapping h.notAside h.noItem h.front h.key (hasValue_iff.mpr rfl))

/-- Another text behind the colon leaves the cut where it is. -/
theorem IsCut.assign (h : IsCut s lead before after) (other : List Char) :
    IsCut (lead ++ (before ++ ':' :: other)) lead before other := by
  have hFront := h.front.assign other
  refine ⟨?_, not_isItem_assign h.front h.noItem h.key.before_ne_nil other, hFront,
    h.key.assign other⟩
  obtain ⟨c, rest, hFirst, -, hComment⟩ := h.front.exists_cons h.notAside
  rw [isAside_iff, isBlankOrComment, (isIndented_iff.mp hFront).2]
  cases before with
  | nil => exact absurd rfl h.key.before_ne_nil
  | cons d before =>
      rw [(List.cons.inj hFirst).1]
      simpa using hComment

end Cut

/-- An edit cuts a mapping line into the text up to its colon and its value. -/
theorem assignment?_of_mapping {line : String} {mapping : MappingLine} {value : String}
    (h : classify line = .mapping mapping) (hValue : mapping.value = some value) :
    ∃ head, assignment? line = some (head, value) := by
  obtain ⟨lead, before, after, hCut, rfl⟩ := exists_isCut h
  refine ⟨String.ofList (lead ++ before ++ [':']), ?_⟩
  rw [assignment?, hCut.assignmentOf, ← trim_of_value? hValue]
  rfl

/-- A mapping line that is put together again with another value is the same line but for the
value. -/
theorem classify_assign {line : String} {mapping : MappingLine} {head value : String}
    (h : classify line = .mapping mapping) (hHead : assignment? line = some (head, value))
    {answer : String} (hNe : Text.trimmed answer ≠ "")
    (hComment : (Text.trimmed answer).toList.head? ≠ some '#') :
    classify (head ++ " " ++ Text.trimmed answer) =
      .mapping { mapping with value := some (Text.trimmed answer) } := by
  obtain ⟨lead, before, after, hCut, rfl⟩ := exists_isCut h
  rw [assignment?, hCut.assignmentOf] at hHead
  obtain ⟨rfl, -⟩ := Prod.mk.inj (Option.some.inj hHead)
  have hTrim : (Text.trimmed answer).toList = Text.trim answer.toList := by
    rw [Text.trimmed, String.toList_ofList]
  have hAnswer : ¬ IsAside answer.toList := by
    rintro (hNil | hHash)
    · rw [Text.trimmed, hNil] at hNe
      exact absurd rfl hNe
    · rw [hTrim] at hComment
      exact absurd hHash hComment
  have hText : (String.ofList (lead ++ before ++ [':']) ++ " " ++ Text.trimmed answer).toList =
      lead ++ (before ++ ':' :: (' ' :: Text.trim answer.toList)) := by
    rw [String.toList_append, String.toList_append, String.toList_ofList, hTrim]
    simp
  rw [classify, hText, (hCut.assign _).ofChars, value?_trim hAnswer]
  rfl

end Line

end YamlIndex
