import YamlIndex.Proofs.Session.Records
import YamlIndex.Session.Basic

/-!
# Where answers come from

A query puts its answer together from what is remembered under the key of its source and from what
it reads now, and the parts may be of different age: the lines may be read anew while the tree is an
old one.  So each record has an *origin*, which names the text that its lines came from and the text
that its tree came from, and what a query answers is known once the origins are.

A name may be anything that stands for a text; `contents` says for which.  With a single name this
says that nothing is stale, with the paths of files it says whose text an answer is about.

## Main results

* `lines_spec`, `entries_spec`: the answer of a query, and the origins after it.
* `Extends`: a query writes records under the key of its source only.
-/

namespace YamlIndex

/-! ## Origins -/

/-- Whether a slot holds what is made from the given lines and from the tree of other lines. -/
def Slot.IsMade (reader : Option Reader) (lines treeLines : List String) :
    (slot : Slot) → slot.Content → Prop
  | .lines, value => value = lines
  | .tree, value => readTree reader treeLines = some value
  | .entries kind, value => value = entriesWith (readTree reader treeLines) lines kind

/-- For each slot the name of the text whose lines its record was made from, and the name of the
text whose tree it was made from. -/
abbrev Origins (ι : Type) := Slot → ι × ι

/-- The origins with another one for a slot. -/
def Origins.set {ι : Type} (origins : Origins ι) (slot : Slot) (origin : ι × ι) : Origins ι :=
  fun other => if other = slot then origin else origins other

theorem Origins.set_self {ι : Type} (origins : Origins ι) (slot : Slot) (origin : ι × ι) :
    origins.set slot origin slot = origin := by
  rw [Origins.set, if_pos rfl]

theorem Origins.set_ne {ι : Type} (origins : Origins ι) {slot other : Slot} (h : other ≠ slot)
    (origin : ι × ι) : origins.set slot origin other = origins other := by
  rw [Origins.set, if_neg h]

namespace Cache

variable {ι : Type} {contents : ι → List String} {reader : Option Reader}

/-- Each record under the key was made from what its origin names. -/
def ComesFrom (cache : Cache) (key : String) (reader : Option Reader) (contents : ι → List String)
    (origins : Origins ι) : Prop :=
  ∀ slot record, cache.record? slot key = some record →
    slot.IsMade reader (contents (origins slot).1) (contents (origins slot).2) record.value

theorem ComesFrom.get? {cache : Cache} {key : String} {origins : Origins ι}
    (h : cache.ComesFrom key reader contents origins) {slot : Slot} {value : slot.Content}
    (hGet : cache.get? slot key = some value) :
    slot.IsMade reader (contents (origins slot).1) (contents (origins slot).2) value := by
  obtain ⟨record, hRecord, rfl⟩ := exists_record?_of_get? hGet
  exact h slot record hRecord

theorem ComesFrom.put {cache : Cache} {key : String} {origins : Origins ι}
    (h : cache.ComesFrom key reader contents origins) {slot : Slot} {value : slot.Content}
    {origin : ι × ι} (hMade : slot.IsMade reader (contents origin.1) (contents origin.2) value) :
    (cache.put slot key value).ComesFrom key reader contents (origins.set slot origin) := by
  intro other record hRecord
  rcases record?_put_cases hRecord with ⟨rfl, -, hValue⟩ | ⟨hOther, hOld⟩
  · rw [Origins.set_self, hValue]
    exact hMade
  · rw [Origins.set_ne _ fun hSlot => hOther ⟨hSlot, rfl⟩]
    exact h other record hOld

/-- A slot whose live value is known may be said to come from where that value does. -/
theorem ComesFrom.set {cache : Cache} {key : String} {origins : Origins ι}
    (h : cache.ComesFrom key reader contents origins) {slot : Slot} {origin : ι × ι}
    (hSame : ∀ record, cache.record? slot key = some record →
      slot.IsMade reader (contents origin.1) (contents origin.2) record.value) :
    cache.ComesFrom key reader contents (origins.set slot origin) := by
  intro other record hRecord
  by_cases hSlot : other = slot
  · subst hSlot
    rw [Origins.set_self]
    exact hSame record hRecord
  · rw [Origins.set_ne _ hSlot]
    exact h other record hRecord

end Cache

namespace Session

/-! ## Sessions that differ in records under one key -/

/-- The second session is the first one with other records under the key. -/
structure Extends (key : String) (before after : Session) : Prop where
  editor : after.editor = before.editor
  ledger : after.ledger = before.ledger
  reader : after.reader = before.reader
  others : ∀ slot other, other ≠ key →
    after.cache.record? slot other = before.cache.record? slot other

theorem Extends.refl (key : String) (session : Session) : Extends key session session :=
  ⟨rfl, rfl, rfl, fun _ _ _ => rfl⟩

theorem Extends.trans {key : String} {s t u : Session} (h : Extends key s t)
    (h' : Extends key t u) : Extends key s u where
  editor := h'.editor.trans h.editor
  ledger := h'.ledger.trans h.ledger
  reader := h'.reader.trans h.reader
  others slot other hKey := (h'.others slot other hKey).trans (h.others slot other hKey)

theorem extends_remember (session : Session) (slot : Slot) (key : String)
    (result : slot.Content) : Extends key session (session.remember slot key result) :=
  ⟨rfl, rfl, rfl, fun other _ hKey => Cache.record?_put_key session.cache slot other hKey result⟩

/-! ## Ways a query can go -/

theorem lines_cases (session : Session) (source : Source) :
    (∃ lines, session.cache.get? .lines source.key = some lines ∧
        session.lines source = .ok (lines, session)) ∨
      (session.cache.get? .lines source.key = none ∧
        ∃ lines, session.editor.readLines source = .ok lines ∧
          session.lines source = .ok (lines, session.remember .lines source.key lines)) ∨
      (session.cache.get? .lines source.key = none ∧
        ∃ error, session.editor.readLines source = .error error ∧
          session.lines source = .error error) := by
  rw [lines]
  cases hGet : session.cache.get? .lines source.key with
  | some lines => exact .inl ⟨lines, rfl, rfl⟩
  | none =>
      cases hRead : session.editor.readLines source with
      | ok lines => exact .inr (.inl ⟨rfl, lines, rfl, rfl⟩)
      | error error => exact .inr (.inr ⟨rfl, error, rfl, rfl⟩)

theorem tree_cases (session : Session) (key : String) (lines : List String) :
    (session.reader = none ∧ session.tree key lines = (none, session)) ∨
      (∃ read tree, session.reader = some read ∧ session.cache.get? .tree key = some tree ∧
        session.tree key lines = (some tree, session)) ∨
      (session.cache.get? .tree key = none ∧ readTree session.reader lines = none ∧
        session.tree key lines = (none, session)) ∨
      (∃ tree, session.cache.get? .tree key = none ∧
        readTree session.reader lines = some tree ∧
          session.tree key lines = (some tree, session.remember .tree key tree)) := by
  rw [tree]
  cases hReader : session.reader with
  | none => exact .inl ⟨rfl, rfl⟩
  | some read =>
      cases hGet : session.cache.get? .tree key with
      | some tree => exact .inr (.inl ⟨read, tree, rfl, rfl, rfl⟩)
      | none =>
          cases hRead : read (Text.joinLines lines) with
          | none => exact .inr (.inr (.inl ⟨rfl, hRead, by simp only [hRead]⟩))
          | some tree => exact .inr (.inr (.inr ⟨tree, rfl, hRead, by simp only [hRead]⟩))

/-- A question for a tree remembers at most this tree. -/
theorem snd_tree_cases (session : Session) (key : String) (lines : List String) :
    (session.tree key lines).2 = session ∨
      ∃ tree, (session.tree key lines).2 = session.remember .tree key tree := by
  rcases tree_cases session key lines with ⟨-, hEq⟩ | ⟨_, _, -, -, hEq⟩ | ⟨-, -, hEq⟩ |
    ⟨tree, -, -, hEq⟩
  · exact .inl (by rw [hEq])
  · exact .inl (by rw [hEq])
  · exact .inl (by rw [hEq])
  · exact .inr ⟨tree, by rw [hEq]⟩

theorem entries_cases (session : Session) (kind : EntryKind) (source : Source) :
    (∃ entries, session.cache.get? (.entries kind) source.key = some entries ∧
        session.entries kind source = .ok (entries, session)) ∨
      (session.cache.get? (.entries kind) source.key = none ∧
        ∃ lines opened, session.lines source = .ok (lines, opened) ∧
          session.entries kind source =
            .ok (entriesWith (opened.tree source.key lines).1 lines kind,
              (opened.tree source.key lines).2.remember (.entries kind) source.key
                (entriesWith (opened.tree source.key lines).1 lines kind))) ∨
      (session.cache.get? (.entries kind) source.key = none ∧
        ∃ error, session.lines source = .error error ∧
          session.entries kind source = .error error) := by
  rw [entries]
  cases hGet : session.cache.get? (.entries kind) source.key with
  | some entries => exact .inl ⟨entries, rfl, rfl⟩
  | none =>
      cases hLines : session.lines source with
      | ok result => exact .inr (.inl ⟨rfl, result.1, result.2, rfl, rfl⟩)
      | error error => exact .inr (.inr ⟨rfl, error, rfl, rfl⟩)

/-- Keys are looked for in the lines that a query for them gives. -/
theorem map_fst_keysStartingWith (session : Session) (source : Source) (text : String)
    (limit : Option Nat) :
    (session.keysStartingWith source text limit).map Prod.fst =
      ((session.lines source).map Prod.fst).map
        fun lines => YamlIndex.keysStartingWith text lines limit := by
  rw [keysStartingWith]
  cases session.lines source <;> rfl

/-- Paths are looked for in the lines that a query for them gives. -/
theorem map_fst_find (session : Session) (source : Source) (query : String)
    (limit : Option Nat) :
    (session.find source query limit).map Prod.fst =
      ((session.lines source).map Prod.fst).map
        fun lines => findPath (Path.ofDotted query) lines limit := by
  rw [find]
  cases session.lines source <;> rfl

/-! ## Queries write under the key of their source -/

theorem extends_lines {session after : Session} {source : Source} {lines : List String}
    (h : session.lines source = .ok (lines, after)) : Extends source.key session after := by
  rcases lines_cases session source with ⟨_, -, hEq⟩ | ⟨-, read, -, hEq⟩ | ⟨-, _, -, hEq⟩
  · rw [hEq] at h
    cases h
    exact Extends.refl _ _
  · rw [hEq] at h
    cases h
    exact extends_remember session .lines source.key lines
  · rw [hEq] at h
    exact absurd h (by simp)

theorem extends_tree (session : Session) (key : String) (lines : List String) :
    Extends key session (session.tree key lines).2 := by
  rcases snd_tree_cases session key lines with hEq | ⟨tree, hEq⟩
  · rw [hEq]
    exact Extends.refl _ _
  · rw [hEq]
    exact extends_remember session .tree key tree

theorem extends_entries {session after : Session} {kind : EntryKind} {source : Source}
    {entries : List kind.Entry} (h : session.entries kind source = .ok (entries, after)) :
    Extends source.key session after := by
  rcases entries_cases session kind source with
    ⟨_, -, hEq⟩ | ⟨-, lines, opened, hLines, hEq⟩ | ⟨-, _, -, hEq⟩
  · rw [hEq] at h
    cases h
    exact Extends.refl _ _
  · rw [hEq] at h
    cases h
    exact (extends_lines hLines).trans
      ((extends_tree opened source.key lines).trans (extends_remember _ _ _ _))
  · rw [hEq] at h
    exact absurd h (by simp)

/-! ## Origins of an answer -/

section Origins

variable {ι : Type} (contents : ι → List String)

/-- Whose lines a query answers with, when `present` names the text that the source has now. -/
def linesOrigin (session : Session) (key : String) (origins : Origins ι) (present : ι) : ι :=
  if (session.cache.get? .lines key).isSome then (origins .lines).1 else present

/-- Whose tree goes with the lines of the given name. -/
def treeOrigin (session : Session) (key : String) (origins : Origins ι) (lines : ι) : ι :=
  if session.reader.isSome && (session.cache.get? .tree key).isSome then (origins .tree).2
  else lines

/-- Whose lines and whose tree the entries of a kind are made from. -/
def entriesOrigin (session : Session) (key : String) (origins : Origins ι) (present : ι)
    (kind : EntryKind) : ι × ι :=
  if (session.cache.get? (.entries kind) key).isSome then origins (.entries kind)
  else
    let lines := session.linesOrigin key origins present
    (lines, session.treeOrigin key origins lines)

/-- The origins after the lines of a source have been asked for. -/
def originsAfterLines (session : Session) (key : String) (origins : Origins ι) (present : ι) :
    Origins ι :=
  let lines := session.linesOrigin key origins present
  origins.set .lines (lines, lines)

/-- The origins after the tree that goes with some lines has been asked for.  Only a tree that there
is leaves a record. -/
def originsAfterTree (session : Session) (key : String) (origins : Origins ι) (lines : ι) :
    Origins ι :=
  let tree := session.treeOrigin key origins lines
  if (readTree session.reader (contents tree)).isSome then origins.set .tree (tree, tree)
  else origins

/-- The origins after the entries of a source have been asked for. -/
def originsAfterEntries (session : Session) (key : String) (origins : Origins ι) (present : ι)
    (kind : EntryKind) : Origins ι :=
  if (session.cache.get? (.entries kind) key).isSome then origins
  else
    ((session.originsAfterTree contents key (session.originsAfterLines key origins present)
      (session.linesOrigin key origins present)).set (.entries kind)
        (session.entriesOrigin key origins present kind))

variable {contents} {session : Session} {source : Source} {key : String} {origins : Origins ι}

theorem lines_spec (present : ι)
    (hFrom : session.cache.ComesFrom source.key session.reader contents origins)
    (hPresent : ∀ lines, session.editor.readLines source = .ok lines → lines = contents present)
    {lines : List String} {after : Session} (h : session.lines source = .ok (lines, after)) :
    lines = contents (session.linesOrigin source.key origins present) ∧
      after.cache.ComesFrom source.key session.reader contents
        (session.originsAfterLines source.key origins present) := by
  rcases lines_cases session source with
    ⟨found, hGet, hEq⟩ | ⟨hGet, read, hRead, hEq⟩ | ⟨-, _, -, hEq⟩
  · rw [hEq] at h
    cases h
    rw [originsAfterLines, linesOrigin, hGet]
    refine ⟨hFrom.get? hGet, hFrom.set fun record hRecord => ?_⟩
    exact hFrom .lines record hRecord
  · rw [hEq] at h
    cases h
    have hLines : lines = contents present := hPresent lines hRead
    rw [originsAfterLines, linesOrigin, hGet]
    exact ⟨hLines, hFrom.put hLines⟩
  · rw [hEq] at h
    exact absurd h (by simp)

theorem tree_spec (hFrom : session.cache.ComesFrom key session.reader contents origins)
    (lines : ι) :
    (session.tree key (contents lines)).1 =
        readTree session.reader (contents (session.treeOrigin key origins lines)) ∧
      (session.tree key (contents lines)).2.cache.ComesFrom key session.reader contents
        (session.originsAfterTree contents key origins lines) := by
  rcases tree_cases session key (contents lines) with ⟨hReader, hEq⟩ |
    ⟨read, tree, hReader, hGet, hEq⟩ | ⟨hGet, hRead, hEq⟩ | ⟨tree, hGet, hRead, hEq⟩
  · have hNone : ∀ text, readTree session.reader text = none := by
      intro text
      rw [hReader]
      rfl
    rw [hEq, originsAfterTree, hNone]
    exact ⟨rfl, hFrom⟩
  · have hOrigin : session.treeOrigin key origins lines = (origins .tree).2 := by
      rw [treeOrigin, hReader, hGet]
      rfl
    have hTree : readTree session.reader (contents (origins .tree).2) = some tree :=
      hFrom.get? hGet
    rw [hEq, originsAfterTree, hOrigin, hTree]
    refine ⟨rfl, hFrom.set fun record hRecord => ?_⟩
    exact hFrom .tree record hRecord
  · have hOrigin : session.treeOrigin key origins lines = lines := by
      rw [treeOrigin, hGet, Option.isSome_none, Bool.and_false]
      rfl
    rw [hEq, originsAfterTree, hOrigin, hRead]
    exact ⟨rfl, hFrom⟩
  · have hOrigin : session.treeOrigin key origins lines = lines := by
      rw [treeOrigin, hGet, Option.isSome_none, Bool.and_false]
      rfl
    rw [hEq, originsAfterTree, hOrigin, hRead]
    exact ⟨rfl, hFrom.put hRead⟩

/-- Asking for lines leaves the tree that is remembered. -/
theorem get?_tree_of_lines {after : Session} {lines : List String}
    (h : session.lines source = .ok (lines, after)) :
    after.cache.get? .tree source.key = session.cache.get? .tree source.key := by
  rcases lines_cases session source with ⟨_, -, hEq⟩ | ⟨-, read, -, hEq⟩ | ⟨-, _, -, hEq⟩
  · rw [hEq] at h
    cases h
    rfl
  · rw [hEq] at h
    cases h
    have hSlot : Slot.tree ≠ Slot.lines := by decide
    exact Cache.get?_put_slot session.cache hSlot source.key source.key lines
  · rw [hEq] at h
    exact absurd h (by simp)

theorem originsAfterTree_of_lines (contents : ι → List String) {after : Session}
    {lines : List String} (h : session.lines source = .ok (lines, after)) (origins : Origins ι)
    (name : ι) :
    after.treeOrigin source.key origins name = session.treeOrigin source.key origins name ∧
      after.originsAfterTree contents source.key origins name =
        session.originsAfterTree contents source.key origins name := by
  have hReader := (extends_lines h).reader
  have hOrigin : after.treeOrigin source.key origins name =
      session.treeOrigin source.key origins name := by
    rw [treeOrigin, treeOrigin, get?_tree_of_lines h, hReader]
  refine ⟨hOrigin, ?_⟩
  rw [originsAfterTree, originsAfterTree, hOrigin, hReader]

theorem treeOrigin_set_lines (session : Session) (key : String) (origins : Origins ι)
    (origin : ι × ι) (name : ι) :
    session.treeOrigin key (origins.set .lines origin) name =
      session.treeOrigin key origins name := by
  have hSlot : Slot.tree ≠ Slot.lines := by decide
  rw [treeOrigin, treeOrigin, Origins.set_ne origins hSlot]

theorem entries_spec (present : ι)
    (hFrom : session.cache.ComesFrom source.key session.reader contents origins)
    (hPresent : ∀ lines, session.editor.readLines source = .ok lines → lines = contents present)
    {kind : EntryKind} {entries : List kind.Entry} {after : Session}
    (h : session.entries kind source = .ok (entries, after)) :
    let origin := session.entriesOrigin source.key origins present kind
    entries =
        entriesWith (readTree session.reader (contents origin.2)) (contents origin.1) kind ∧
      after.cache.ComesFrom source.key session.reader contents
        (session.originsAfterEntries contents source.key origins present kind) := by
  intro origin
  rcases entries_cases session kind source with
    ⟨found, hGet, hEq⟩ | ⟨hGet, lines, opened, hLines, hEq⟩ | ⟨-, _, -, hEq⟩
  · rw [hEq] at h
    cases h
    have hOrigin : origin = origins (.entries kind) := by
      show session.entriesOrigin source.key origins present kind = _
      rw [entriesOrigin, hGet]
      rfl
    rw [hOrigin, originsAfterEntries, hGet]
    exact ⟨hFrom.get? hGet, hFrom⟩
  · rw [hEq] at h
    cases h
    obtain ⟨rfl, hOpened⟩ := lines_spec present hFrom hPresent hLines
    have hReader : opened.reader = session.reader := (extends_lines hLines).reader
    rw [← hReader] at hOpened
    obtain ⟨hTree, hAfter⟩ :=
      tree_spec hOpened (session.linesOrigin source.key origins present)
    obtain ⟨hSame, hSameAfter⟩ := originsAfterTree_of_lines contents hLines
      (session.originsAfterLines source.key origins present)
      (session.linesOrigin source.key origins present)
    have hOrigin : origin =
        (session.linesOrigin source.key origins present,
          session.treeOrigin source.key origins
            (session.linesOrigin source.key origins present)) := by
      show session.entriesOrigin source.key origins present kind = _
      rw [entriesOrigin, hGet]
      rfl
    have hLabel : opened.treeOrigin source.key
        (session.originsAfterLines source.key origins present)
          (session.linesOrigin source.key origins present) = origin.2 := by
      rw [hSame, originsAfterLines, treeOrigin_set_lines, hOrigin]
    rw [hLabel, hReader] at hTree
    rw [hSameAfter, hReader] at hAfter
    have hEntries : entriesWith
        (opened.tree source.key (contents (session.linesOrigin source.key origins present))).1
          (contents (session.linesOrigin source.key origins present)) kind =
        entriesWith (readTree session.reader (contents origin.2)) (contents origin.1) kind := by
      rw [hTree, hOrigin]
    refine ⟨hEntries, ?_⟩
    rw [originsAfterEntries, hGet]
    exact hAfter.put hEntries
  · rw [hEq] at h
    exact absurd h (by simp)

end Origins

end Session

end YamlIndex
