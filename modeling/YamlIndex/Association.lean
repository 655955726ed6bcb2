import YamlIndex.Node
import YamlIndex.Scan
import YamlIndex.Text.Lines

/-!
# Tying an outline to lines

The outline of a tree knows paths but no lines, the lines know keys but no paths.  Each line that
carries a key claims an entry of the outline that ends in this key and has not been claimed.  Both
are in document order, so the search goes on behind the entry claimed last, and starts over from
the front only when nothing is found there.  What is never claimed (items without a key, keys
inside braces) is left out.

A claimed entry is taken out of those that are free, so no entry can be claimed twice.

An index made this way is used when at least one line found its entry; otherwise the scan by
indentation serves.

## Main results

* `Unclaimed.claim?_perm`: a claim takes out one entry that ends in the key and keeps all others.
* `Unclaimed.claim?_eq_none_iff`: a claim fails only when no free entry ends in the key.
* `entriesWith_cases`: whether the entries are those of a tree or of the scan.
-/

namespace YamlIndex

/-- An entry of an outline and the line that introduces it. -/
structure Tied where
  /-- Counted from one. -/
  line : Nat
  /-- The line without the blanks around it. -/
  text : String
  entry : OutlineEntry
  deriving DecidableEq, Repr

/-! ## Entries that are free -/

/-- An entry that ends in a key, with this key in front. -/
abbrev Candidate := String × OutlineEntry

/-- The entries of an outline that can be claimed and have not been, parted at the one claimed last.
-/
structure Unclaimed where
  /-- Those in front of it, the nearest first. -/
  passed : List Candidate := []
  /-- Those behind it, the nearest first. -/
  ahead : List Candidate
  deriving Repr

namespace Unclaimed

/-- All entries of an outline that can be claimed. -/
def ofOutline (outline : List OutlineEntry) : Unclaimed where
  ahead := outline.filterMap fun entry => entry.key?.map fun key => (key, entry)

/-- The entries in document order. -/
def toList (free : Unclaimed) : List Candidate :=
  free.passed.reverse ++ free.ahead

/-- The first entry ahead that ends in the key, and the entries that are free without it. -/
def seek? (key : String) (passed : List Candidate) :
    List Candidate → Option (OutlineEntry × Unclaimed)
  | [] => none
  | candidate :: ahead =>
    if candidate.1 = key then some (candidate.2, ⟨passed, ahead⟩)
    else seek? key (candidate :: passed) ahead

/-- The entry that a line with the given key claims, and the entries that are free without it. -/
def claim? (free : Unclaimed) (key : String) : Option (OutlineEntry × Unclaimed) :=
  (seek? key free.passed free.ahead).or
    ((seek? key [] free.passed.reverse).map fun (entry, parted) =>
      (entry, { parted with ahead := parted.ahead ++ free.ahead }))

theorem perm_of_seek? {key : String} {passed ahead : List Candidate} {entry : OutlineEntry}
    {free : Unclaimed} (h : seek? key passed ahead = some (entry, free)) :
    (passed.reverse ++ ahead).Perm ((key, entry) :: free.toList) := by
  fun_induction seek? key passed ahead with
  | case1 => simp at h
  | case2 passed candidate ahead hKey =>
    simp only [Option.some.injEq, Prod.mk.injEq] at h
    obtain ⟨rfl, rfl⟩ := h
    subst hKey
    exact List.perm_middle
  | case3 passed candidate ahead hKey ih => simpa using ih h

theorem seek?_eq_none_iff {key : String} {passed ahead : List Candidate} :
    seek? key passed ahead = none ↔ ∀ candidate ∈ ahead, candidate.1 ≠ key := by
  fun_induction seek? key passed ahead with
  | case1 => simp
  | case2 passed candidate ahead hKey => simp [hKey]
  | case3 passed candidate ahead hKey ih => simp [hKey, ih]

theorem claim?_perm {free rest : Unclaimed} {key : String} {entry : OutlineEntry}
    (h : free.claim? key = some (entry, rest)) :
    free.toList.Perm ((key, entry) :: rest.toList) := by
  rw [claim?, Option.or_eq_some_iff] at h
  rcases h with h | ⟨_, h⟩
  · exact perm_of_seek? h
  · obtain ⟨⟨found, parted⟩, hSeek, hParted⟩ := Option.map_eq_some_iff.1 h
    simp only [Prod.mk.injEq] at hParted
    obtain ⟨rfl, rfl⟩ := hParted
    have hPerm := perm_of_seek? hSeek
    simp only [List.reverse_nil, List.nil_append, toList] at hPerm
    simpa [toList] using hPerm.append_right free.ahead

theorem claim?_eq_none_iff {free : Unclaimed} {key : String} :
    free.claim? key = none ↔ ∀ candidate ∈ free.toList, candidate.1 ≠ key := by
  simp only [claim?, Option.or_eq_none_iff, Option.map_eq_none_iff, seek?_eq_none_iff, toList,
    List.mem_append]
  constructor
  · rintro ⟨hAhead, hPassed⟩ candidate (h | h)
    · exact hPassed candidate h
    · exact hAhead candidate h
  · exact fun h => ⟨fun c hc => h c (.inr hc), fun c hc => h c (.inl hc)⟩

end Unclaimed

/-! ## Lines and entries -/

namespace Association

/-- The state of the search between two lines. -/
structure State where
  free : Unclaimed
  /-- What has been tied so far, the last one first. -/
  tied : List Tied := []
  deriving Repr

/-- The state after one more line. -/
def State.read (state : State) (line : String × Nat) : State :=
  match (Line.classify line.1).key? with
  | none => state
  | some key =>
    match state.free.claim? key with
    | none => state
    | some (entry, free) =>
      { free, tied := ⟨line.2, Text.trimmed line.1, entry⟩ :: state.tied }

end Association

/-- Ties the entries of an outline to the lines that introduce them, in line order. -/
def associate (outline : List OutlineEntry) (lines : List String) : List Tied :=
  ((lines.zipIdx 1).foldl Association.State.read { free := .ofOutline outline }).tied.reverse

/-! ## An index from a tree -/

/-- The index entry for a tied node. -/
def Tied.asPath (tied : Tied) : PathEntry where
  line := tied.line
  key := tied.entry.name
  text := tied.text
  path := tied.entry.path
  isItem := tied.entry.isItem
  position := tied.entry.position

/-- The index entry for a tied scalar that is not empty. -/
def Tied.asValue? (tied : Tied) : Option ValueEntry :=
  match tied.entry.value with
  | none => none
  | some value =>
    if value.isEmpty then none
    else
      some
        { line := tied.line, key := tied.entry.name, path := tied.entry.path, value
          text := tied.text }

theorem Tied.of_asValue? {tied : Tied} {entry : ValueEntry} (h : tied.asValue? = some entry) :
    entry.value ≠ "" ∧ tied.entry.value = some entry.value ∧
      entry = ⟨tied.line, tied.entry.name, tied.entry.path, entry.value, tied.text, none⟩ := by
  rw [Tied.asValue?] at h
  split at h
  · exact absurd h (by simp)
  · rename_i value hValue
    split at h
    · exact absurd h (by simp)
    · rename_i hNotEmpty
      cases h
      exact ⟨fun hEmpty => hNotEmpty (String.isEmpty_iff.2 hEmpty), hValue, rfl⟩

/-- The index entry of a kind for a tied node. -/
def Tied.entryOf? (tied : Tied) : (kind : EntryKind) → Option kind.Entry
  | .path => some tied.asPath
  | .value => tied.asValue?

/-- An entry for a tied node stands on its line and has no file. -/
theorem Tied.of_entryOf? {tied : Tied} {kind : EntryKind} {entry : kind.Entry}
    (h : tied.entryOf? kind = some entry) :
    kind.line entry = tied.line ∧ kind.file entry = none := by
  cases kind with
  | path =>
    cases Option.some.inj h
    exact ⟨rfl, rfl⟩
  | value =>
    obtain ⟨-, -, hEntry⟩ := Tied.of_asValue? h
    rw [hEntry]
    exact ⟨rfl, rfl⟩

/-- The entries of a tree with their lines; none when no entry could be tied to a line. -/
def treeEntries? (root : Node) (lines : List String) (kind : EntryKind) :
    Option (List kind.Entry) :=
  match associate root.outline lines with
  | [] => none
  | tied => some (tied.filterMap (·.entryOf? kind))

/-- The paths of a tree with their lines. -/
def treePaths? (root : Node) (lines : List String) : Option (List PathEntry) :=
  treeEntries? root lines .path

/-- The values of a tree with their lines. -/
def treeValues? (root : Node) (lines : List String) : Option (List ValueEntry) :=
  treeEntries? root lines .value

/-! ## With or without a tree -/

/-- The tree of the lines taken as one document, when there is a reader and it succeeds. -/
def readTree (reader : Option Reader) (lines : List String) : Option Node :=
  reader.bind fun read => read (Text.joinLines lines)

/-- The entries of the scan. -/
def scanEntries (lines : List String) : (kind : EntryKind) → List kind.Entry
  | .path => scanPaths lines
  | .value => scanValues lines

/-- The entries of the lines: from the tree if there is one and it fits, else by indentation. -/
def entriesWith (tree : Option Node) (lines : List String) (kind : EntryKind) : List kind.Entry :=
  (tree.bind (treeEntries? · lines kind)).getD (scanEntries lines kind)

/-- Where the entries come from: the scan, or a tree with an entry for some line. -/
theorem entriesWith_cases (tree : Option Node) (lines : List String) (kind : EntryKind) :
    (∀ root, tree = some root → associate root.outline lines = []) ∧
        entriesWith tree lines kind = scanEntries lines kind ∨
      ∃ root, tree = some root ∧ associate root.outline lines ≠ [] ∧
        entriesWith tree lines kind =
          (associate root.outline lines).filterMap (·.entryOf? kind) := by
  cases tree with
  | none => exact .inl ⟨fun _ h => absurd h (by simp), rfl⟩
  | some root =>
    rw [entriesWith, Option.bind_some, treeEntries?]
    cases hTied : associate root.outline lines with
    | nil => exact .inl ⟨fun _ h => Option.some.inj h ▸ hTied, rfl⟩
    | cons tied rest => exact .inr ⟨root, rfl, by simp [hTied], by rw [hTied]; rfl⟩

/-- The paths of the lines, through the reader where it helps. -/
def extractPaths (reader : Option Reader) (lines : List String) : List PathEntry :=
  entriesWith (readTree reader lines) lines .path

/-- The values of the lines, through the reader where it helps. -/
def extractValues (reader : Option Reader) (lines : List String) : List ValueEntry :=
  entriesWith (readTree reader lines) lines .value

end YamlIndex
