import YamlIndex.Proofs.Line.Grammar

/-!
# Two ways to take a line apart

The scan takes a line apart from the left and keeps its key and its value.  An edit keeps the line,
looks for the place behind the colon of its key, and cuts there.  The two never meet, but both begin
with the same *body*: what is left of the line behind its leading blanks, and of an item behind its
marker and the blanks that follow.  Whether there is a key, which colon ends it and what the value
is, is decided in the body alone.

## Main results

* `Line.exists_isBody`: every line has a body.
* `Line.IsBody.assignmentOf_of_hasKey`, `Line.IsBody.ofChars_of_hasKey`: both readings of a line
  whose body opens with a key.
* `Line.assignment?_eq_none_iff`: the lines without a key that an edit cuts.
* `Line.assignment?_agrees`: the two readings find the same key and the same value.
-/

namespace YamlIndex

namespace Line

/-- The value on the line, in front of which a key may stand. -/
def ownValue? : Line → Option String
  | blank => none
  | unparsed => none
  | mapping line => line.value
  | item line => line.value

/-- A line is a front and a body: the front of an item goes on to where the text of the item begins,
and that of any other line consists of its leading blanks. -/
inductive IsBody (s : List Char) : List Char → List Char → Prop
  | item {lead gap text : List Char} (hItem : IsItem s lead gap text) :
      IsBody s (lead ++ '-' :: gap) text
  | plain {lead rest : List Char} (hItem : ∀ lead gap text, ¬ IsItem s lead gap text)
      (hFront : IsIndented s lead rest) : IsBody s lead rest

theorem exists_isBody (s : List Char) : ∃ front body, IsBody s front body := by
  by_cases h : ∃ lead gap text, IsItem s lead gap text
  · obtain ⟨lead, gap, text, hItem⟩ := h
    exact ⟨_, _, .item hItem⟩
  · have hNone : ∀ lead gap text, ¬ IsItem s lead gap text :=
      fun lead gap text hItem => h ⟨lead, gap, text, hItem⟩
    exact ⟨_, _, .plain hNone (isIndented_trimStart s)⟩

section Body

variable {s front body before after : List Char}

theorem IsBody.text (h : IsBody s front body) : s = front ++ body := by
  cases h with
  | item hItem =>
      rw [hItem.marker.text]
      simp
  | plain hItem hFront => exact hFront.text

/-! ## Cutting -/

/-- An edit looks for the key in the body, and cuts the line that much from its end. -/
theorem IsBody.assignmentOf_eq (h : IsBody s front body) :
    assignmentOf s = (keyAndValue? body).bind fun _ =>
      (Text.splitFirst ':' body).bind fun parts =>
        some (front ++ parts.1 ++ [':'], Text.trim parts.2) := by
  have hFront : s.take (s.length - body.length) = front := by
    rw [h.text, List.length_append, Nat.add_sub_cancel, List.take_left]
  cases h with
  | item hItem =>
      obtain ⟨hMarker, hAfter, hBehind⟩ := isItem_iff.mp hItem
      have hStart := (isIndented_iff.mp hMarker).2
      have hText := (isIndented_iff.mp hBehind).2
      unfold assignmentOf
      simp only [hStart, hAfter, hText, hFront]
      rfl
  | plain hItem hPlain =>
      have hNone := hPlain.afterMarker?_eq_none hItem
      have hStart := (isIndented_iff.mp hPlain).2
      unfold assignmentOf
      simp only [hStart, hNone, hFront]
      rfl

theorem IsBody.assignmentOf_of_hasKey (h : IsBody s front body) (hKey : HasKey body before after) :
    assignmentOf s = some (front ++ before ++ [':'], Text.trim after) := by
  have hSplit : Text.splitFirst ':' body = some (before, after) := by
    rw [hKey.text, splitFirst_append hKey.first]
  rw [h.assignmentOf_eq, hKey.keyAndValue?, hSplit]
  rfl

theorem IsBody.assignmentOf_of_none (h : IsBody s front body) (hKey : keyAndValue? body = none) :
    assignmentOf s = none := by
  rw [h.assignmentOf_eq, hKey]
  rfl

/-- A line that is cut has a body with a key, and is cut behind the colon of this key. -/
theorem exists_of_assignment? {line head value : String}
    (h : assignment? line = some (head, value)) :
    ∃ front before after, IsBody line.toList front (before ++ ':' :: after) ∧
      HasKey (before ++ ':' :: after) before after ∧
      head = String.ofList (front ++ before ++ [':']) ∧
        value = String.ofList (Text.trim after) := by
  obtain ⟨front, body, hBody⟩ := exists_isBody line.toList
  unfold assignment? at h
  cases hRead : keyAndValue? body with
  | none =>
      rw [hBody.assignmentOf_of_none hRead] at h
      exact absurd h (by simp)
  | some found =>
      obtain ⟨before, after, hKey, -, -⟩ := exists_hasKey hRead
      rw [hBody.assignmentOf_of_hasKey hKey] at h
      obtain ⟨rfl, rfl⟩ := Prod.mk.inj (Option.some.inj h)
      exact ⟨front, before, after, hKey.text ▸ hBody, hKey.text ▸ hKey, rfl, rfl⟩

/-! ## Classifying -/

/-- The scan looks for the key in the body, too. -/
theorem IsBody.ofChars_of_hasKey (h : IsBody s front body) (hAside : ¬ IsAside s)
    (hKey : HasKey body before after) :
    (ofChars s).key? = some (String.ofList (unquote (Text.trim before))) ∧
      (ofChars s).ownValue? = value? after := by
  cases h with
  | item hItem =>
      rw [hItem.ofChars, hKey.keyAndValue?]
      exact ⟨rfl, rfl⟩
  | plain hItem hFront =>
      rw [hFront.ofChars hAside hItem, hKey.keyAndValue?]
      exact ⟨rfl, rfl⟩

theorem IsBody.key?_of_none (h : IsBody s front body) (hAside : ¬ IsAside s)
    (hKey : keyAndValue? body = none) : (ofChars s).key? = none := by
  cases h with
  | item hItem =>
      rw [hItem.ofChars, hKey]
      rfl
  | plain hItem hFront =>
      rw [hFront.ofChars hAside hItem, hKey]
      rfl

end Body

/-! ## Comments with a colon

The scan leaves comments out before it looks for a key.  An edit looks for a key at once, and finds
one in a comment that has a colon: the sign of the comment is a character of the key. -/

/-- A line is a comment with a colon: blanks, the sign of a comment, what stands in front of the
first colon, and what stands behind it. -/
structure IsNote (s lead before after : List Char) : Prop where
  text : s = lead ++ '#' :: (before ++ ':' :: after)
  blanks : Layout.IsBlanks lead
  first : ':' ∉ before

section Note

variable {s lead before after : List Char}

theorem IsNote.isIndented (h : IsNote s lead before after) :
    IsIndented s lead ('#' :: before ++ ':' :: after) := by
  refine ⟨h.text, h.blanks, fun c hc => ?_⟩
  cases hc
  decide

theorem IsNote.isAside (h : IsNote s lead before after) : IsAside s := by
  rw [isAside_iff, isBlankOrComment, (isIndented_iff.mp h.isIndented).2]
  rfl

theorem IsNote.hasKey (h : IsNote s lead before after) :
    HasKey ('#' :: before ++ ':' :: after) ('#' :: before) after := by
  refine ⟨rfl, ?_, ?_⟩
  · rw [List.mem_cons, not_or]
    exact ⟨by decide, h.first⟩
  · apply List.ne_nil_of_mem
    exact Text.mem_stripBoth (Text.mem_stripBoth (Text.mem_trim List.mem_cons_self (by decide))
      (by decide)) (by decide)

theorem IsIndented.not_isItem {c : Char} {rest : List Char} (h : IsIndented s lead (c :: rest))
    (hc : c ≠ '-') (other gap text : List Char) : ¬ IsItem s other gap text := by
  intro hItem
  have hStart := (isIndented_iff.mp h).2
  rw [(isIndented_iff.mp hItem.marker).2] at hStart
  exact hc (List.cons.inj hStart).1.symm

/-- An edit cuts a comment with a colon as if it were a mapping line. -/
theorem IsNote.assignment?_eq {line : String} (h : IsNote line.toList lead before after) :
    assignment? line =
      some (String.ofList (lead ++ '#' :: before ++ [':']), String.ofList (Text.trim after)) := by
  have hBody := IsBody.plain (h.isIndented.not_isItem (by decide)) h.isIndented
  rw [assignment?, hBody.assignmentOf_of_hasKey h.hasKey]
  rfl

/-- A comment in which a key is found has a colon. -/
theorem IsBody.isNote {front : List Char} (h : IsBody s front (before ++ ':' :: after))
    (hKey : HasKey (before ++ ':' :: after) before after) (hAside : IsAside s) :
    ∃ rest, before = '#' :: rest ∧ IsNote s front rest after := by
  rw [isAside_iff, isBlankOrComment] at hAside
  cases h with
  | item hItem =>
      rw [(isIndented_iff.mp hItem.marker).2] at hAside
      exact absurd hAside (by simp)
  | plain hItem hFront =>
      rw [(isIndented_iff.mp hFront).2] at hAside
      cases before with
      | nil => exact absurd rfl hKey.named
      | cons c rest =>
          have hc : c = '#' := by simpa using hAside
          subst hc
          refine ⟨rest, rfl, hFront.text, hFront.blanks, fun hIn => hKey.first ?_⟩
          exact List.mem_cons_of_mem _ hIn

end Note

/-- Of the lines without a key an edit cuts the comments with a colon, and no other. -/
theorem assignment?_eq_none_iff {line : String} (h : (classify line).key? = none) :
    assignment? line = none ↔ ∀ lead before after, ¬ IsNote line.toList lead before after := by
  constructor
  · intro hNone lead before after hNote
    rw [hNote.assignment?_eq] at hNone
    exact absurd hNone (by simp)
  · intro hNote
    cases hCut : assignment? line with
    | none => rfl
    | some cut =>
        obtain ⟨head, value⟩ := cut
        obtain ⟨front, before, after, hBody, hKey, -, -⟩ := exists_of_assignment? hCut
        by_cases hAside : IsAside line.toList
        · obtain ⟨rest, -, hFound⟩ := hBody.isNote hKey hAside
          exact absurd hFound (hNote front rest after)
        · have hSome := (hBody.ofChars_of_hasKey hAside hKey).1
          rw [← classify, h] at hSome
          exact absurd hSome (by simp)

/-! ## Both readings of a line -/

/-- The value of a text is the trimmed text, unless nothing or a comment is left. -/
theorem value?_eq_ite (s : List Char) :
    value? s = if Text.trim s = [] ∨ (Text.trim s).head? = some '#' then none
      else some (String.ofList (Text.trim s)) := by
  split
  · rename_i hAside
    exact value?_of_isAside hAside
  · rename_i hText
    exact value?_of_not_isAside hText

/-- **A line that is neither empty nor a comment is cut for an edit just if it is classified with a
key.**  It is cut behind the first colon of its body; the text in front of the colon is the key, and
what stands behind it is the value. -/
theorem assignment?_agrees {line : String} (hText : ¬ IsAside line.toList) :
    ((assignment? line).isSome = true ↔ (classify line).key?.isSome = true) ∧
      ∀ head value, assignment? line = some (head, value) →
        ∃ front before after, IsBody line.toList front (before ++ ':' :: after) ∧ ':' ∉ before ∧
          head.toList = front ++ before ++ [':'] ∧ line.toList = head.toList ++ after ∧
          value.toList = Text.trim after ∧
          (classify line).key? = some (String.ofList (unquote (Text.trim before))) ∧
          (classify line).ownValue? =
            if value = "" ∨ value.toList.head? = some '#' then none else some value := by
  obtain ⟨front, body, hBody⟩ := exists_isBody line.toList
  unfold assignment? classify
  cases hRead : keyAndValue? body with
  | none =>
      rw [hBody.assignmentOf_of_none hRead, hBody.key?_of_none hText hRead]
      simp
  | some found =>
      obtain ⟨key, ownValue⟩ := found
      obtain ⟨before, after, hKey, -, -⟩ := exists_hasKey hRead
      obtain ⟨hName, hValue⟩ := hBody.ofChars_of_hasKey hText hKey
      rw [hBody.assignmentOf_of_hasKey hKey, hName, hValue]
      refine ⟨by simp, ?_⟩
      intro head value hCut
      obtain ⟨rfl, rfl⟩ := Prod.mk.inj (Option.some.inj hCut)
      have hLine : line.toList = front ++ before ++ [':'] ++ after := by
        rw [hBody.text, hKey.text]
        simp
      rw [String.toList_ofList, String.toList_ofList]
      refine ⟨front, before, after, hKey.text ▸ hBody, hKey.first, rfl, hLine, rfl, rfl, ?_⟩
      simp [value?_eq_ite]

/-- A quoted key behind a marker, with wide blanks around, and a value with a colon in it. -/
theorem assignment?_agrees_quoted :
    let line := "\u2003- \"app/name\"\u00a0: nginx:1.14 # main"
    ¬ IsAside line.toList ∧ assignment? line =
        some ("\u2003- \"app/name\"\u00a0:", "nginx:1.14 # main") ∧
      (classify line).key?.isSome = true ∧
      (classify line).ownValue? = some "nginx:1.14 # main" := by
  intro line
  have hText : ¬ IsAside line.toList := by decide
  have hCut : assignment? line =
      some ("\u2003- \"app/name\"\u00a0:", "nginx:1.14 # main") := by decide
  obtain ⟨hKeyed, hParts⟩ := assignment?_agrees hText
  obtain ⟨front, before, after, -, -, -, -, -, -, hValue⟩ := hParts _ _ hCut
  refine ⟨hText, hCut, hKeyed.mp (by rw [hCut]; rfl), ?_⟩
  rw [hValue]
  decide

end Line

end YamlIndex
