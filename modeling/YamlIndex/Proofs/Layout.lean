import YamlIndex.Node
import YamlIndex.Scan
import Mathlib.Data.List.Basic

/-!
# Block layouts of a tree

A tree is written in block style with one line for each key and for each element: the members of a
mapping stand in one column right of the key they belong to, the dashes of a sequence in one column
that is the key's own or right of it, and the first key of an element follows its dash on the same
line.  The columns are free otherwise, from node to node, and lines that are empty or comments may
stand anywhere.

`IsBlock root lines` says that the lines are such a layout of the tree.  Not every tree has one that
reads back: `Node.IsPlain` leaves out keys and scalars that would have to be quoted, empty
collections, keys that occur twice and sequences directly within sequences.

## Main results

* `classify_keyLine`, `classify_itemKeyLine`: a line of a layout that carries a key is classified by
  the column of its marker, the column of its key, and its key.
* `classify_nullItem`, `classify_scalarItem`: an element that is a null or a scalar is an item line
  without a key.
-/

namespace YamlIndex

/-! ## Text that needs no quotes -/

/-- A key that can stand in front of a colon as it is. -/
structure IsPlainKey (key : String) : Prop where
  nonempty : key.toList ≠ []
  trimmed : Text.trim key.toList = key.toList
  no_colon : ':' ∉ key.toList
  no_comment : key.toList.head? ≠ some '#'
  no_marker : ∀ c rest, key.toList = '-' :: c :: rest → Text.isBlank c = false
  no_quote_head : ∀ c, key.toList.head? = some c → c ≠ '"' ∧ c ≠ '\''
  no_quote_last : ∀ c, key.toList.getLast? = some c → c ≠ '"' ∧ c ≠ '\''

/-- A scalar that can stand behind a colon or a dash as it is. -/
structure IsPlainScalar (text : String) : Prop where
  nonempty : text.toList ≠ []
  trimmed : Text.trim text.toList = text.toList
  no_comment : text.toList.head? ≠ some '#'

namespace Node

/-- Whether the node is a mapping. -/
def isMapping : Node → Bool
  | mapping _ => true
  | _ => false

mutual

/-- A tree that has block layouts. -/
def IsPlain : Node → Prop
  | null => True
  | scalar text => IsPlainScalar text
  | sequence items => items ≠ [] ∧ ArePlainItems items
  | mapping members =>
    members ≠ [] ∧ (members.map Prod.fst).Nodup ∧ ArePlainMembers members

/-- Elements of a sequence in a tree that has block layouts. -/
def ArePlainItems : List Node → Prop
  | [] => True
  | item :: rest => IsPlainItem item ∧ ArePlainItems rest

/-- An element of a sequence in a tree that has block layouts: no sequence itself, and no scalar
that would read as a key with a value. -/
def IsPlainItem : Node → Prop
  | null => True
  | scalar text => IsPlainScalar text ∧ ':' ∉ text.toList
  | sequence _ => False
  | mapping members =>
    members ≠ [] ∧ (members.map Prod.fst).Nodup ∧ ArePlainMembers members

/-- Members of a mapping in a tree that has block layouts. -/
def ArePlainMembers : List (String × Node) → Prop
  | [] => True
  | (key, child) :: rest => IsPlainKey key ∧ IsPlain child ∧ ArePlainMembers rest

end

end Node

/-! ## Layouts -/

namespace Layout

/-- A run of blanks. -/
def IsBlanks (s : List Char) : Prop :=
  ∀ c ∈ s, Text.isBlank c = true

/-- Lines that are empty or comments. -/
def AreAsides (lines : List String) : Prop :=
  ∀ line ∈ lines, Line.isBlankOrComment line.toList = true

/-- The line of a key; `lead` is what stands in front of the key, `behind` what follows its
colon. -/
def keyLine (lead : List Char) (key : String) (behind : List Char) : String :=
  String.ofList (lead ++ key.toList ++ ':' :: behind)

/-- What stands behind the colon of a key: the scalar that the key leads to, and else nothing. -/
def IsBehind : Node → List Char → Prop
  | .scalar text, s => ∃ gap tail, IsBlanks gap ∧ IsBlanks tail ∧ s = gap ++ text.toList ++ tail
  | _, s => IsBlanks s

mutual

/-- The lines below the line of a key in the given column. -/
def IsBelow (column : Nat) : Node → List String → Prop
  | .null, lines => lines = []
  | .scalar _, lines => lines = []
  | .sequence items, lines => ∃ dashes, column ≤ dashes ∧ AreItems dashes items lines
  | .mapping members, lines => ∃ keys, column < keys ∧ AreMembers keys members lines

/-- The lines of members of a mapping with their keys in the given column. -/
def AreMembers (column : Nat) : List (String × Node) → List String → Prop
  | [], lines => AreAsides lines
  | (key, child) :: rest, lines =>
    ∃ asides lead behind below more, AreAsides asides ∧ IsBlanks lead ∧ lead.length = column ∧
      IsBehind child behind ∧ IsBelow column child below ∧ AreMembers column rest more ∧
        lines = asides ++ keyLine lead key behind :: (below ++ more)

/-- The lines of elements of a sequence with their dashes in the given column. -/
def AreItems (column : Nat) : List Node → List String → Prop
  | [], lines => AreAsides lines
  | item :: rest, lines =>
    ∃ asides lead own more, AreAsides asides ∧ IsBlanks lead ∧ lead.length = column ∧
      IsItem lead item own ∧ AreItems column rest more ∧ lines = asides ++ (own ++ more)

/-- The lines of an element of a sequence; `lead` is what stands in front of its dash.  The other
keys of a mapping stand in the column of its first one. -/
def IsItem (lead : List Char) : Node → List String → Prop
  | .null, lines => ∃ tail, IsBlanks tail ∧ lines = [String.ofList (lead ++ '-' :: tail)]
  | .scalar text, lines =>
    ∃ gap tail, IsBlanks gap ∧ gap ≠ [] ∧ IsBlanks tail ∧
      lines = [String.ofList (lead ++ '-' :: (gap ++ text.toList ++ tail))]
  | .sequence _, _ => False
  | .mapping [], _ => False
  | .mapping ((key, child) :: rest), lines =>
    ∃ gap behind below more, IsBlanks gap ∧ gap ≠ [] ∧ IsBehind child behind ∧
      IsBelow (lead.length + 1 + gap.length) child below ∧
      AreMembers (lead.length + 1 + gap.length) rest more ∧
        lines = keyLine (lead ++ '-' :: gap) key behind :: (below ++ more)

end

end Layout

/-- The lines are a block layout of the tree.  A scalar has none, for it has neither a key nor a
dash. -/
def IsBlock : Node → List String → Prop
  | .null, lines => Layout.AreAsides lines
  | .scalar _, _ => False
  | .sequence items, lines => ∃ column, Layout.AreItems column items lines
  | .mapping members, lines => ∃ column, Layout.AreMembers column members lines

/-! ## Text in front of other text -/

theorem trimStart_append {s : List Char} (h : Layout.IsBlanks s) (rest : List Char) :
    Text.trimStart (s ++ rest) = Text.trimStart rest := by
  induction s with
  | nil => rfl
  | cons c s ih =>
      have hc : Text.isBlank c = true := h c (by simp)
      have hs : Layout.IsBlanks s := fun d hd => h d (by simp [hd])
      rw [List.cons_append, Text.trimStart, List.dropWhile_cons_of_pos hc]
      exact ih hs

theorem trimStart_cons {c : Char} (h : Text.isBlank c = false) (rest : List Char) :
    Text.trimStart (c :: rest) = c :: rest := by
  rw [Text.trimStart, List.dropWhile_cons_of_neg (by simp [h])]

theorem takeWhile_append_cons {s : List Char} (h : Layout.IsBlanks s) {c : Char}
    (hc : Text.isBlank c = false) (rest : List Char) :
    (s ++ c :: rest).takeWhile Text.isBlank = s := by
  rw [List.takeWhile_append_of_pos h, List.takeWhile_cons_of_neg (by simp [hc]),
    List.append_nil]

/-- A text that trimming leaves as it is does not begin with a blank. -/
theorem isBlank_head_of_trim {c : Char} {s : List Char} (h : Text.trim (c :: s) = c :: s) :
    Text.isBlank c = false := by
  by_contra hBlank
  have hc : Text.isBlank c = true := by simpa using hBlank
  have hShort : (Text.trim (c :: s)).length ≤ s.length := by
    rw [Text.trim, Text.trimStart, List.dropWhile_cons_of_pos hc, Text.trimEnd,
      List.length_reverse]
    calc ((s.dropWhile Text.isBlank).reverse.dropWhile Text.isBlank).length
        ≤ (s.dropWhile Text.isBlank).reverse.length := (List.dropWhile_sublist _).length_le
      _ = (s.dropWhile Text.isBlank).length := List.length_reverse
      _ ≤ s.length := (List.dropWhile_sublist _).length_le
  rw [h, List.length_cons] at hShort
  omega

theorem splitFirst_append {c : Char} {s : List Char} (h : c ∉ s) (rest : List Char) :
    Text.splitFirst c (s ++ c :: rest) = some (s, rest) := by
  induction s with
  | nil => simp [Text.splitFirst]
  | cons d s ih =>
      have hd : d ≠ c := fun hEq => h (by simp [hEq])
      have hs : c ∉ s := fun hMem => h (by simp [hMem])
      rw [List.cons_append, Text.splitFirst, if_neg hd, ih hs]
      rfl

theorem splitFirst_eq_none {c : Char} {s : List Char} (h : c ∉ s) :
    Text.splitFirst c s = none := by
  induction s with
  | nil => rfl
  | cons d s ih =>
      have hd : d ≠ c := fun hEq => h (by simp [hEq])
      have hs : c ∉ s := fun hMem => h (by simp [hMem])
      rw [Text.splitFirst, if_neg hd, ih hs]
      rfl

theorem stripBoth_eq_self {p : Char → Bool} {s : List Char}
    (hHead : ∀ c, s.head? = some c → p c = false)
    (hLast : ∀ c, s.getLast? = some c → p c = false) : Text.stripBoth p s = s := by
  have hFront : ∀ t : List Char, (∀ c, t.head? = some c → p c = false) → t.dropWhile p = t := by
    intro t ht
    cases t with
    | nil => rfl
    | cons c t =>
        have hc := ht c rfl
        rw [List.dropWhile_cons_of_neg (by simp [hc])]
  rw [Text.stripBoth, hFront s hHead, hFront s.reverse, List.reverse_reverse]
  intro c hc
  rw [List.head?_reverse] at hc
  exact hLast c hc

/-! ## Keys and scalars of a layout -/

theorem IsPlainKey.unquote_eq {key : String} (h : IsPlainKey key) :
    Line.unquote key.toList = key.toList := by
  have hDouble : Text.stripBoth (· == '"') key.toList = key.toList :=
    stripBoth_eq_self (fun c hc => by simpa using (h.no_quote_head c hc).1)
      (fun c hc => by simpa using (h.no_quote_last c hc).1)
  rw [Line.unquote, hDouble]
  exact stripBoth_eq_self (fun c hc => by simpa using (h.no_quote_head c hc).2)
    (fun c hc => by simpa using (h.no_quote_last c hc).2)

theorem IsPlainKey.keyAndValue? {key : String} (h : IsPlainKey key) (behind : List Char) :
    Line.keyAndValue? (key.toList ++ ':' :: behind) = some (key, Line.value? behind) := by
  have hEmpty : key.toList.isEmpty = false := by
    simpa [List.isEmpty_eq_false_iff] using h.nonempty
  simp only [Line.keyAndValue?, splitFirst_append h.no_colon, Option.bind_eq_bind,
    Option.bind_some, h.trimmed, h.unquote_eq, hEmpty]
  simp

/-- The first character of a plain key: no blank and no comment sign, and no dash unless the key
behind the dash goes on without a blank. -/
theorem IsPlainKey.exists_cons {key : String} (h : IsPlainKey key) :
    ∃ c rest, key.toList = c :: rest ∧ Text.isBlank c = false ∧ c ≠ '#' := by
  cases hKey : key.toList with
  | nil => exact absurd hKey h.nonempty
  | cons c rest =>
      have hTrim := h.trimmed
      have hComment := h.no_comment
      rw [hKey] at hTrim hComment
      exact ⟨c, rest, rfl, isBlank_head_of_trim hTrim, by simpa using hComment⟩

theorem IsPlainKey.afterMarker? {key : String} (h : IsPlainKey key) (behind : List Char) :
    Line.afterMarker? (key.toList ++ ':' :: behind) = none := by
  cases hKey : key.toList with
  | nil => exact absurd hKey h.nonempty
  | cons c rest =>
      by_cases hc : c = '-'
      · subst hc
        cases rest with
        | nil =>
            have hColon : Text.isBlank ':' = false := by decide
            simp [Line.afterMarker?, hColon]
        | cons d rest =>
            have hd := h.no_marker d rest hKey
            simp [Line.afterMarker?, hd]
      · simp [Line.afterMarker?, hc]

/-! ## Lines of a layout -/

namespace Layout

theorem classify_aside {line : String} (h : Line.isBlankOrComment line.toList = true) :
    Line.classify line = .blank := by
  rw [Line.classify, Line.ofChars, if_pos h]

/-- Behind blanks the structure of a line is decided by the first other character on. -/
theorem ofChars_append {lead : List Char} (hLead : IsBlanks lead) {c : Char}
    (hc : Text.isBlank c = false) (hComment : c ≠ '#') (rest : List Char) :
    Line.ofChars (lead ++ c :: rest) =
      match Line.afterMarker? (c :: rest) with
      | some after => .item (Line.itemOf lead.length after)
      | none =>
        match Line.keyAndValue? (c :: rest) with
        | some (key, value) => .mapping ⟨lead.length, key, value⟩
        | none => .unparsed := by
  have hTrim : Text.trimStart (lead ++ c :: rest) = c :: rest := by
    rw [trimStart_append hLead, trimStart_cons hc]
  have hBlank : Line.isBlankOrComment (lead ++ c :: rest) = false := by
    simp [Line.isBlankOrComment, hTrim, hComment]
  have hIndent : Line.indentOf (lead ++ c :: rest) = lead.length := by
    rw [Line.indentOf, takeWhile_append_cons hLead hc]
  rw [Line.ofChars, hBlank, hTrim, hIndent]
  rfl

theorem classify_keyLine {lead : List Char} (hLead : IsBlanks lead) {key : String}
    (hKey : IsPlainKey key) (behind : List Char) :
    Line.classify (keyLine lead key behind) =
      .mapping ⟨lead.length, key, Line.value? behind⟩ := by
  obtain ⟨c, rest, hCons, hc, hComment⟩ := hKey.exists_cons
  have hMarker := hKey.afterMarker? behind
  have hValue := hKey.keyAndValue? behind
  rw [hCons, List.cons_append] at hMarker hValue
  rw [Line.classify, keyLine, String.toList_ofList, hCons, List.append_assoc, List.cons_append,
    ofChars_append hLead hc hComment, hMarker, hValue]

/-- A dash with text behind it opens an item line. -/
theorem ofChars_item {lead : List Char} (hLead : IsBlanks lead) {after : List Char}
    (hAfter : Line.afterMarker? ('-' :: after) = some after) :
    Line.ofChars (lead ++ '-' :: after) = .item (Line.itemOf lead.length after) := by
  rw [ofChars_append hLead (by decide) (by decide), hAfter]

theorem afterMarker?_blanks {gap : List Char} (hGap : IsBlanks gap) (hNil : gap ≠ [])
    (rest : List Char) : Line.afterMarker? ('-' :: (gap ++ rest)) = some (gap ++ rest) := by
  cases gap with
  | nil => exact absurd rfl hNil
  | cons c gap =>
      have hc : Text.isBlank c = true := hGap c (by simp)
      simp [Line.afterMarker?, hc]

theorem classify_itemKeyLine {lead gap : List Char} (hLead : IsBlanks lead)
    (hGap : IsBlanks gap) (hNil : gap ≠ []) {key : String} (hKey : IsPlainKey key)
    (behind : List Char) :
    Line.classify (keyLine (lead ++ '-' :: gap) key behind) =
      .item ⟨lead.length, some key, lead.length + 1 + gap.length, Line.value? behind⟩ := by
  obtain ⟨c, rest, hCons, hc, -⟩ := hKey.exists_cons
  have hText : lead ++ '-' :: gap ++ key.toList ++ ':' :: behind =
      lead ++ '-' :: (gap ++ (key.toList ++ ':' :: behind)) := by
    simp
  have hTrim : Text.trimStart (gap ++ (key.toList ++ ':' :: behind)) =
      key.toList ++ ':' :: behind := by
    rw [trimStart_append hGap, hCons, List.cons_append, trimStart_cons hc]
  have hWidth : (gap ++ (key.toList ++ ':' :: behind)).length -
      (key.toList ++ ':' :: behind).length = gap.length := by
    rw [List.length_append]
    omega
  rw [Line.classify, keyLine, String.toList_ofList, hText,
    ofChars_item hLead (afterMarker?_blanks hGap hNil _), Line.itemOf, hTrim, hWidth,
    hKey.keyAndValue?]

/-- A dash before nothing but blanks is an item line without a key. -/
theorem classify_nullItem {lead tail : List Char} (hLead : IsBlanks lead)
    (hTail : IsBlanks tail) :
    ∃ item : ItemLine, Line.classify (String.ofList (lead ++ '-' :: tail)) = .item item ∧
      item.indent = lead.length ∧ item.key = none := by
  have hMarker : Line.afterMarker? ('-' :: tail) = some tail := by
    cases tail with
    | nil => rfl
    | cons c tail => simpa using afterMarker?_blanks hTail (by simp) []
  have hTrim : Text.trimStart tail = [] := by
    simpa [Text.trimStart] using trimStart_append hTail []
  refine ⟨Line.itemOf lead.length tail, ?_, ?_, ?_⟩
  · rw [Line.classify, String.toList_ofList, ofChars_item hLead hMarker]
  · simp [Line.itemOf, hTrim, Line.keyAndValue?, Text.splitFirst]
  · simp [Line.itemOf, hTrim, Line.keyAndValue?, Text.splitFirst]

/-- A dash before a text without a colon is an item line without a key. -/
theorem classify_scalarItem {lead gap tail : List Char} (hLead : IsBlanks lead)
    (hGap : IsBlanks gap) (hNil : gap ≠ []) (hTail : IsBlanks tail) {text : String}
    (hColon : ':' ∉ text.toList) :
    ∃ item : ItemLine,
      Line.classify (String.ofList (lead ++ '-' :: (gap ++ text.toList ++ tail))) =
          .item item ∧
        item.indent = lead.length ∧ item.key = none := by
  have hNone : ':' ∉ Text.trimStart (gap ++ text.toList ++ tail) := by
    intro hMem
    have hAll := (List.dropWhile_sublist Text.isBlank).subset hMem
    have hBlank : Text.isBlank ':' = false := by decide
    rcases List.mem_append.mp hAll with hFront | hBack
    · rcases List.mem_append.mp hFront with hIn | hIn
      · exact absurd (hGap _ hIn) (by simp [hBlank])
      · exact hColon hIn
    · exact absurd (hTail _ hBack) (by simp [hBlank])
  have hKey : Line.keyAndValue? (Text.trimStart (gap ++ text.toList ++ tail)) = none := by
    rw [Line.keyAndValue?, splitFirst_eq_none hNone]
    rfl
  have hMarker : Line.afterMarker? ('-' :: (gap ++ text.toList ++ tail)) =
      some (gap ++ text.toList ++ tail) := by
    rw [List.append_assoc]
    exact afterMarker?_blanks hGap hNil _
  refine ⟨Line.itemOf lead.length (gap ++ text.toList ++ tail), ?_, ?_, ?_⟩
  · rw [Line.classify, String.toList_ofList, ofChars_item hLead hMarker]
  · simp only [Line.itemOf, hKey]
  · simp only [Line.itemOf, hKey]

end Layout

end YamlIndex
