import YamlIndex.Proofs.Text.Trimming

/-!
# The grammar of a line

A line is one of four things.  It is an *aside* when nothing or a comment is left of it without the
blanks around it.  It is an *item* when, behind its leading blanks, a dash stands before a blank or
the end.  It is a line with a *key* when something other than blanks and quotes stands in front of
its first colon.  Otherwise it carries no structure.  The order counts: a comment with a colon is an
aside, and an item with a key is an item.

`Line.Reads` says this without searching: a line is put together from parts, and the columns are the
lengths of the parts.  A text has only one part of leading blanks that cannot go further, and only
one first colon, so a line is put together in one way, and the classification finds it.

## Main results

* `Line.isIndented_iff`: where the leading blanks of a text end.
* `Line.reads_ofChars`, `Line.Reads.ofChars_eq`: the classification of a text is what the grammar
  reads in it, and the grammar reads nothing else.
* `Line.classify_eq_iff`: the same for lines.
-/

namespace YamlIndex

namespace Line

/-! ## Parts of a line -/

/-- Whether a text is empty or a comment, blanks around it aside. -/
def IsAside (s : List Char) : Prop :=
  Text.trim s = [] ∨ (Text.trim s).head? = some '#'

instance (s : List Char) : Decidable (IsAside s) :=
  inferInstanceAs (Decidable (_ ∨ _))

/-- A text is cut where its leading blanks end. -/
structure IsIndented (s lead rest : List Char) : Prop where
  text : s = lead ++ rest
  blanks : Layout.IsBlanks lead
  stops : ∀ c ∈ rest.head?, Text.isBlank c = false

/-- A line is an item with the given text: blanks, a dash, more blanks, and the text, which is empty
when there are no blanks in front of it. -/
structure IsItem (s lead gap text : List Char) : Prop where
  marker : IsIndented s lead ('-' :: (gap ++ text))
  behind : IsIndented (gap ++ text) gap text
  apart : text ≠ [] → gap ≠ []

/-- A text opens with a key: something other than blanks and quotes stands in front of its first
colon. -/
structure HasKey (s before after : List Char) : Prop where
  text : s = before ++ ':' :: after
  first : ':' ∉ before
  named : unquote (Text.trim before) ≠ []

/-- The value that a text stands for: the text without the blanks around it, unless it is an
aside. -/
inductive HasValue (s : List Char) : Option String → Prop
  | absent (h : IsAside s) : HasValue s none
  | present (h : ¬ IsAside s) : HasValue s (some (String.ofList (Text.trim s)))

/-- **The grammar of a line.**  Each rule applies where those above it do not. -/
inductive Reads (s : List Char) : Line → Prop
  | blank (hAside : IsAside s) : Reads s .blank
  | keyedItem {lead gap text before after : List Char} {value : Option String}
      (hAside : ¬ IsAside s) (hItem : IsItem s lead gap text) (hKey : HasKey text before after)
      (hValue : HasValue after value) :
      Reads s (.item ⟨lead.length, some (String.ofList (unquote (Text.trim before))),
        lead.length + 1 + gap.length, value⟩)
  | plainItem {lead gap text : List Char} {value : Option String}
      (hAside : ¬ IsAside s) (hItem : IsItem s lead gap text)
      (hKey : ∀ before after, ¬ HasKey text before after) (hValue : HasValue text value) :
      Reads s (.item ⟨lead.length, none, lead.length + 1 + gap.length, value⟩)
  | mapping {lead before after : List Char} {value : Option String}
      (hAside : ¬ IsAside s) (hItem : ∀ lead gap text, ¬ IsItem s lead gap text)
      (hFront : IsIndented s lead (before ++ ':' :: after))
      (hKey : HasKey (before ++ ':' :: after) before after) (hValue : HasValue after value) :
      Reads s (.mapping ⟨lead.length, String.ofList (unquote (Text.trim before)), value⟩)
  | unparsed (hAside : ¬ IsAside s) (hItem : ∀ lead gap text, ¬ IsItem s lead gap text)
      (hKey : ∀ lead rest before after, IsIndented s lead rest → ¬ HasKey rest before after) :
      Reads s .unparsed

/-! ## Finding the parts -/

/-- The leading blanks of a text end in one place only. -/
theorem isIndented_iff {s lead rest : List Char} :
    IsIndented s lead rest ↔ s.takeWhile Text.isBlank = lead ∧ Text.trimStart s = rest := by
  constructor
  · rintro ⟨rfl, hBlanks, hStops⟩
    have hStop : rest.takeWhile Text.isBlank = [] ∧ Text.trimStart rest = rest := by
      cases rest with
      | nil => exact ⟨rfl, rfl⟩
      | cons c rest =>
          have hc : Text.isBlank c = false := hStops c rfl
          exact ⟨List.takeWhile_cons_of_neg (by simp [hc]), trimStart_cons hc rest⟩
    constructor
    · rw [List.takeWhile_append_of_pos hBlanks, hStop.1, List.append_nil]
    · rw [trimStart_append hBlanks, hStop.2]
  · rintro ⟨rfl, rfl⟩
    refine ⟨(Text.takeWhile_append_trimStart s).symm, fun c hc => List.mem_takeWhile_imp hc, ?_⟩
    intro c hc
    obtain ⟨rest, hRest⟩ := List.head?_eq_some_iff.mp hc
    exact Text.isBlank_head_trimStart hRest

theorem isIndented_trimStart (s : List Char) :
    IsIndented s (s.takeWhile Text.isBlank) (Text.trimStart s) :=
  isIndented_iff.mpr ⟨rfl, rfl⟩

theorem isAside_iff {s : List Char} : IsAside s ↔ isBlankOrComment s = true := by
  have hHead := Text.head?_trim s
  unfold IsAside isBlankOrComment
  rw [← List.head?_eq_none_iff, hHead]
  cases Text.trimStart s with
  | nil => simp
  | cons c rest => simp

theorem value?_of_isAside {s : List Char} (h : IsAside s) : value? s = none := by
  unfold value?
  split
  · rfl
  · rfl
  · rename_i hNil hHash
    rcases h with hEmpty | hComment
    · exact absurd hEmpty hNil
    · obtain ⟨rest, hRest⟩ := List.head?_eq_some_iff.mp hComment
      exact absurd hRest (hHash rest)

theorem value?_of_not_isAside {s : List Char} (h : ¬ IsAside s) :
    value? s = some (String.ofList (Text.trim s)) := by
  unfold value?
  split
  · rename_i hNil
    exact absurd (.inl hNil) h
  · rename_i hHash
    exact absurd (.inr (by rw [hHash]; rfl)) h
  · rfl

theorem hasValue_iff {s : List Char} {value : Option String} :
    HasValue s value ↔ value? s = value := by
  constructor
  · intro h
    cases h with
    | absent hAside => exact value?_of_isAside hAside
    | present hText => exact value?_of_not_isAside hText
  · rintro rfl
    by_cases h : IsAside s
    · rw [value?_of_isAside h]
      exact .absent h
    · rw [value?_of_not_isAside h]
      exact .present h

theorem afterMarker?_eq_some_iff {s after : List Char} :
    afterMarker? s = some after ↔ s = '-' :: after ∧ ∀ c ∈ after.head?, Text.isBlank c = true := by
  constructor
  · intro h
    unfold afterMarker? at h
    split at h
    · rename_i rest
      cases rest with
      | nil =>
          cases h
          simp
      | cons c rest =>
          dsimp only at h
          by_cases hBlank : Text.isBlank c = true
          · rw [if_pos hBlank] at h
            cases h
            simp [hBlank]
          · rw [if_neg hBlank] at h
            exact absurd h (by simp)
    · exact absurd h (by simp)
  · rintro ⟨rfl, hFirst⟩
    cases after with
    | nil => rfl
    | cons c rest => simp [afterMarker?, hFirst c rfl]

/-- Behind a marker the blanks and the text of an item are found by trimming. -/
theorem isItem_iff {s lead gap text : List Char} :
    IsItem s lead gap text ↔ IsIndented s lead ('-' :: (gap ++ text)) ∧
      afterMarker? ('-' :: (gap ++ text)) = some (gap ++ text) ∧
        IsIndented (gap ++ text) gap text := by
  rw [afterMarker?_eq_some_iff]
  constructor
  · rintro ⟨hMarker, hBehind, hApart⟩
    refine ⟨hMarker, ⟨rfl, ?_⟩, hBehind⟩
    intro c hc
    cases gap with
    | nil =>
        have hText : text = [] := by
          by_contra hNe
          exact hApart hNe rfl
        simp [hText] at hc
    | cons d gap => exact hBehind.blanks c (by simp at hc; simp [hc])
  · rintro ⟨hMarker, ⟨-, hFirst⟩, hBehind⟩
    refine ⟨hMarker, hBehind, ?_⟩
    rintro hText rfl
    obtain ⟨c, rest, rfl⟩ := List.exists_cons_of_ne_nil hText
    have hBlank : Text.isBlank c = true := hFirst c rfl
    simp [hBehind.stops c rfl] at hBlank

theorem exists_isItem {s after : List Char} (h : afterMarker? (Text.trimStart s) = some after) :
    ∃ lead gap text, IsItem s lead gap text := by
  obtain ⟨hDash, -⟩ := afterMarker?_eq_some_iff.mp h
  have hSplit := Text.takeWhile_append_trimStart after
  refine ⟨s.takeWhile Text.isBlank, after.takeWhile Text.isBlank, Text.trimStart after, ?_⟩
  rw [isItem_iff, hSplit, ← hDash]
  exact ⟨isIndented_trimStart s, h, isIndented_trimStart after⟩

/-- The key and the value of a text that is cut at its first colon. -/
theorem keyAndValue?_append {before : List Char} (h : ':' ∉ before) (after : List Char) :
    keyAndValue? (before ++ ':' :: after) =
      if (unquote (Text.trim before)).isEmpty then none
      else some (String.ofList (unquote (Text.trim before)), value? after) := by
  rw [keyAndValue?, splitFirst_append h]
  rfl

theorem HasKey.keyAndValue? {s before after : List Char} (h : HasKey s before after) :
    keyAndValue? s = some (String.ofList (unquote (Text.trim before)), value? after) := by
  rw [h.text, keyAndValue?_append h.first, if_neg (by simpa using h.named)]

theorem exists_hasKey {s : List Char} {key : String} {value : Option String}
    (h : keyAndValue? s = some (key, value)) :
    ∃ before after, HasKey s before after ∧
      String.ofList (unquote (Text.trim before)) = key ∧ value? after = value := by
  by_cases hColon : ':' ∈ s
  · obtain ⟨before, after, rfl, hFirst⟩ := List.eq_append_cons_of_mem hColon
    rw [keyAndValue?_append hFirst] at h
    split at h
    · exact absurd h (by simp)
    · rename_i hNamed
      obtain ⟨hKey, hValue⟩ := Prod.mk.inj (Option.some.inj h)
      exact ⟨before, after, ⟨rfl, hFirst, by simpa using hNamed⟩, hKey, hValue⟩
  · rw [Line.keyAndValue?, splitFirst_eq_none hColon] at h
    exact absurd h (by simp)

theorem keyAndValue?_eq_none_iff {s : List Char} :
    keyAndValue? s = none ↔ ∀ before after, ¬ HasKey s before after := by
  constructor
  · intro hNone before after hKey
    rw [hKey.keyAndValue?] at hNone
    exact absurd hNone (by simp)
  · intro hKey
    cases hRead : keyAndValue? s with
    | none => rfl
    | some found =>
        obtain ⟨before, after, hFound, -⟩ := exists_hasKey hRead
        exact absurd hFound (hKey before after)

/-! ## Classification -/

section Classification

variable {s lead gap text rest : List Char}

theorem ofChars_of_isAside (h : IsAside s) : ofChars s = .blank := by
  rw [ofChars, if_pos (isAside_iff.mp h)]

theorem IsItem.ofChars (h : IsItem s lead gap text) :
    ofChars s = .item (match keyAndValue? text with
      | some (key, value) => ⟨lead.length, some key, lead.length + 1 + gap.length, value⟩
      | none => ⟨lead.length, none, lead.length + 1 + gap.length, value? text⟩) := by
  obtain ⟨hMarker, hAfter, hBehind⟩ := isItem_iff.mp h
  have hTrim : Text.trimStart (gap ++ text) = text := (isIndented_iff.mp hBehind).2
  have hGap : (gap ++ text).length - text.length = gap.length := by
    rw [List.length_append]
    omega
  rw [hMarker.text, Layout.ofChars_item hMarker.blanks hAfter]
  cases hRead : keyAndValue? text with
  | none => simp only [itemOf, hTrim, hGap, hRead]
  | some found => simp only [itemOf, hTrim, hGap, hRead]

/-- A text other than an aside has a first character behind its leading blanks. -/
theorem IsIndented.exists_cons (h : IsIndented s lead rest) (hAside : ¬ IsAside s) :
    ∃ c tail, rest = c :: tail ∧ Text.isBlank c = false ∧ c ≠ '#' := by
  have hRest : Text.trimStart s = rest := (isIndented_iff.mp h).2
  rw [isAside_iff, isBlankOrComment, hRest] at hAside
  cases rest with
  | nil => exact absurd rfl hAside
  | cons c tail => exact ⟨c, tail, rfl, h.stops c rfl, by simpa using hAside⟩

theorem IsIndented.afterMarker?_eq_none (h : IsIndented s lead rest)
    (hItem : ∀ lead gap text, ¬ IsItem s lead gap text) : afterMarker? rest = none := by
  cases hAfter : afterMarker? rest with
  | none => rfl
  | some after =>
      rw [← (isIndented_iff.mp h).2] at hAfter
      obtain ⟨lead, gap, text, hFound⟩ := exists_isItem hAfter
      exact absurd hFound (hItem lead gap text)

theorem IsIndented.ofChars (h : IsIndented s lead rest) (hAside : ¬ IsAside s)
    (hItem : ∀ lead gap text, ¬ IsItem s lead gap text) :
    ofChars s = match keyAndValue? rest with
      | some (key, value) => .mapping ⟨lead.length, key, value⟩
      | none => .unparsed := by
  have hMarker : afterMarker? rest = none := h.afterMarker?_eq_none hItem
  obtain ⟨c, tail, rfl, hBlank, hComment⟩ := h.exists_cons hAside
  rw [h.text, Layout.ofChars_append h.blanks hBlank hComment]
  cases hRead : keyAndValue? (c :: tail) with
  | none => simp only [hMarker]
  | some found => simp only [hMarker]

end Classification

/-- The grammar reads in every text what the classification finds. -/
theorem reads_ofChars (s : List Char) : Reads s (ofChars s) := by
  by_cases hAside : IsAside s
  · rw [ofChars_of_isAside hAside]
    exact .blank hAside
  · by_cases hItem : ∃ lead gap text, IsItem s lead gap text
    · obtain ⟨lead, gap, text, hItem⟩ := hItem
      rw [hItem.ofChars]
      cases hRead : keyAndValue? text with
      | none =>
          exact .plainItem hAside hItem (keyAndValue?_eq_none_iff.mp hRead) (hasValue_iff.mpr rfl)
      | some found =>
          obtain ⟨key, value⟩ := found
          obtain ⟨before, after, hKey, rfl, hValue⟩ := exists_hasKey hRead
          exact .keyedItem hAside hItem hKey (hasValue_iff.mpr hValue)
    · have hNone : ∀ lead gap text, ¬ IsItem s lead gap text :=
        fun lead gap text h => hItem ⟨lead, gap, text, h⟩
      have hFront := isIndented_trimStart s
      rw [hFront.ofChars hAside hNone]
      cases hRead : keyAndValue? (Text.trimStart s) with
      | none =>
          refine .unparsed hAside hNone fun lead rest before after hOther hKey => ?_
          rw [← (isIndented_iff.mp hOther).2] at hKey
          exact keyAndValue?_eq_none_iff.mp hRead before after hKey
      | some found =>
          obtain ⟨key, value⟩ := found
          obtain ⟨before, after, hKey, rfl, hValue⟩ := exists_hasKey hRead
          rw [hKey.text] at hFront hKey
          exact .mapping hAside hNone hFront hKey (hasValue_iff.mpr hValue)

/-- The grammar reads nothing in a text but what the classification finds. -/
theorem Reads.ofChars_eq {s : List Char} {read : Line} (h : Reads s read) : ofChars s = read := by
  cases h with
  | blank hAside => exact ofChars_of_isAside hAside
  | keyedItem hAside hItem hKey hValue =>
      rw [hItem.ofChars, hKey.keyAndValue?, hasValue_iff.mp hValue]
  | plainItem hAside hItem hKey hValue =>
      rw [hItem.ofChars, keyAndValue?_eq_none_iff.mpr hKey, hasValue_iff.mp hValue]
  | mapping hAside hItem hFront hKey hValue =>
      rw [hFront.ofChars hAside hItem, hKey.keyAndValue?, hasValue_iff.mp hValue]
  | unparsed hAside hItem hKey =>
      have hFront := isIndented_trimStart s
      have hNone : keyAndValue? (Text.trimStart s) = none :=
        keyAndValue?_eq_none_iff.mpr fun before after => hKey _ _ before after hFront
      rw [hFront.ofChars hAside hItem, hNone]

/-- **The classification of a line is what the grammar reads in it.** -/
theorem classify_eq_iff (line : String) (read : Line) :
    classify line = read ↔ Reads line.toList read := by
  constructor
  · rintro rfl
    exact reads_ofChars line.toList
  · exact Reads.ofChars_eq

end Line

end YamlIndex
