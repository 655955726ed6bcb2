import YamlIndex.Proofs.Entries
import YamlIndex.Proofs.Session.Queries

/-!
# The files that entries say they are from

What is made from the lines of one source does not say which file it is from; only the index of a
project does.  Both are remembered in one place, so what is remembered under a key is told apart by
its *tag* only: the file that all entries there say they are from, if they say so.  A query hands
out what is remembered as it is, and what it makes itself has no tag.

So long as no project has been indexed, no tag is a file, and a jump from the entries of a source
stays in this source.

## Main results

* `file_entriesWith`: entries made from lines have no file.
* `Session.HasTags.entries`: which file the entries of a source say they are from.
* `Session.IsUntagged.entries`: they have none when no entry that is remembered has one.
-/

namespace YamlIndex

/-! ## Entries made from lines -/

theorem file_scanEntries (lines : List String) (kind : EntryKind) :
    ∀ entry ∈ scanEntries lines kind, kind.file entry = none := by
  intro entry hEntry
  cases kind with
  | path =>
      obtain ⟨step, -, rfl⟩ := List.mem_map.mp hEntry
      rfl
  | value =>
      obtain ⟨i, -, hLeaf⟩ := exists_leafAt hEntry
      exact Document.file_leafAt hLeaf

theorem file_entriesWith (tree : Option Node) (lines : List String) (kind : EntryKind) :
    ∀ entry ∈ entriesWith tree lines kind, kind.file entry = none := by
  intro entry hEntry
  rcases entriesWith_cases tree lines kind with ⟨-, hScan⟩ | ⟨root, -, -, hTree⟩
  · rw [hScan] at hEntry
    exact file_scanEntries lines kind entry hEntry
  · rw [hTree] at hEntry
    obtain ⟨tied, -, hTied⟩ := List.mem_filterMap.mp hEntry
    exact (Tied.of_entryOf? hTied).2

/-! ## Tags of what is remembered -/

/-- For each kind of entries and each key, the file that the entries there say they are from. -/
abbrev Tags := EntryKind → String → Option FileMeta

namespace Tags

/-- The tags with another one for the entries of a kind under a key. -/
def set (tags : Tags) (kind : EntryKind) (key : String) (file : Option FileMeta) : Tags :=
  fun other otherKey => if other = kind ∧ otherKey = key then file else tags other otherKey

theorem set_self (tags : Tags) (kind : EntryKind) (key : String) (file : Option FileMeta) :
    tags.set kind key file kind key = file := by
  rw [set, if_pos ⟨rfl, rfl⟩]

theorem set_ne (tags : Tags) {kind other : EntryKind} {key otherKey : String}
    (h : ¬(other = kind ∧ otherKey = key)) (file : Option FileMeta) :
    tags.set kind key file other otherKey = tags other otherKey := by
  rw [set, if_neg h]

theorem set_same (tags : Tags) (kind : EntryKind) (key : String) :
    tags.set kind key (tags kind key) = tags := by
  funext other otherKey
  rw [set]
  split
  · rename_i hSame
    rw [hSame.1, hSame.2]
  · rfl

/-- A tag that is a file is one with the path that it is the tag of. -/
def IsKeyed (tags : Tags) : Prop :=
  ∀ kind key file, tags kind key = some file → file.path = key

theorem IsKeyed.set {tags : Tags} (h : tags.IsKeyed) {kind : EntryKind} {key : String}
    {tag : Option FileMeta} (hTag : ∀ file, tag = some file → file.path = key) :
    (tags.set kind key tag).IsKeyed := by
  intro other otherKey file hFile
  by_cases hSame : other = kind ∧ otherKey = key
  · rw [hSame.1, hSame.2, set_self] at hFile
    rw [hSame.2]
    exact hTag file hFile
  · rw [set_ne _ hSame] at hFile
    exact h other otherKey file hFile

end Tags

namespace Session

/-- All entries remembered under a key say that they are from the file that is the tag there. -/
def HasTags (session : Session) (tags : Tags) : Prop :=
  ∀ kind key record, session.cache.record? (.entries kind) key = some record →
    ∀ entry ∈ record.value, kind.file entry = tags kind key

/-- The tag of the entries under a key, if those that have to be made now get the given one. -/
def tagAt (session : Session) (tags : Tags) (kind : EntryKind) (key : String)
    (file : Option FileMeta) : Option FileMeta :=
  match session.cache.get? (.entries kind) key with
  | some _ => tags kind key
  | none => file

section HasTags

variable {session after : Session} {tags : Tags} {kind : EntryKind} {source : Source}

theorem tagAt_of_some {key : String} {entries : List kind.Entry}
    (h : session.cache.get? (.entries kind) key = some entries) (file : Option FileMeta) :
    session.tagAt tags kind key file = tags kind key := by
  rw [tagAt, h]

theorem tagAt_of_none {key : String} (h : session.cache.get? (.entries kind) key = none)
    (file : Option FileMeta) : session.tagAt tags kind key file = file := by
  rw [tagAt, h]

theorem tagAt_self (session : Session) (tags : Tags) (kind : EntryKind) (key : String) :
    session.tagAt tags kind key (tags kind key) = tags kind key := by
  rw [tagAt]
  split <;> rfl

theorem path_of_tagAt (h : tags.IsKeyed) {key : String} {given : Option FileMeta}
    (hGiven : ∀ file, given = some file → file.path = key) {file : FileMeta}
    (hTag : session.tagAt tags kind key given = some file) : file.path = key := by
  rw [tagAt] at hTag
  split at hTag
  · exact h kind key file hTag
  · exact hGiven file hTag

theorem hasTags_of_empty (h : ∀ slot key, session.cache.record? slot key = none) (tags : Tags) :
    session.HasTags tags := by
  intro kind key record hRecord
  rw [h] at hRecord
  exact absurd hRecord (by simp)

/-- Forgetting keeps what is left as it is. -/
theorem HasTags.of_records (h : session.HasTags tags)
    (hRecords : ∀ slot key record, after.cache.record? slot key = some record →
      session.cache.record? slot key = some record) : after.HasTags tags :=
  fun kind key record hRecord => h kind key record (hRecords (.entries kind) key record hRecord)

theorem HasTags.get? (h : session.HasTags tags) {key : String} {entries : List kind.Entry}
    (hGet : session.cache.get? (.entries kind) key = some entries) :
    ∀ entry ∈ entries, kind.file entry = tags kind key := by
  obtain ⟨record, hRecord, rfl⟩ := Cache.exists_record?_of_get? hGet
  exact h kind key record hRecord

theorem HasTags.remember (h : session.HasTags tags) (slot : Slot)
    (hSlot : ∀ kind, Slot.entries kind ≠ slot) (key : String) (result : slot.Content) :
    (session.remember slot key result).HasTags tags := by
  intro kind other record hRecord
  have hSame := Cache.record?_put_slot session.cache (hSlot kind) key other result
  exact h kind other record (hSame ▸ hRecord)

theorem HasTags.rememberEntries (h : session.HasTags tags) {entries : List kind.Entry}
    {file : Option FileMeta} (hEntries : ∀ entry ∈ entries, kind.file entry = file)
    (key : String) :
    (session.remember (.entries kind) key entries).HasTags (tags.set kind key file) := by
  intro other otherKey record hRecord
  rcases Cache.record?_put_cases hRecord with ⟨hSlot, hKey, hValue⟩ | ⟨hOther, hOld⟩
  · cases hSlot
    rw [hKey, Tags.set_self, hValue]
    exact hEntries
  · rw [Tags.set_ne _ fun hSame => hOther ⟨congrArg Slot.entries hSame.1, hSame.2⟩]
    exact h other otherKey record hOld

theorem HasTags.lines (h : session.HasTags tags) {lines : List String}
    (hLines : session.lines source = .ok (lines, after)) : after.HasTags tags := by
  rcases lines_cases session source with ⟨_, -, hEq⟩ | ⟨-, read, -, hEq⟩ | ⟨-, _, -, hEq⟩
  · rw [hEq] at hLines
    cases hLines
    exact h
  · rw [hEq] at hLines
    cases hLines
    exact h.remember .lines (by simp) source.key lines
  · rw [hEq] at hLines
    exact absurd hLines (by simp)

theorem HasTags.tree (h : session.HasTags tags) (key : String) (lines : List String) :
    (session.tree key lines).2.HasTags tags := by
  rcases snd_tree_cases session key lines with hEq | ⟨tree, hEq⟩
  · rw [hEq]
    exact h
  · rw [hEq]
    exact h.remember .tree (by simp) key tree

/-- The entries of a source say that they are from the file that is the tag under its key, or from
none when they had to be made, and this is what they are remembered with. -/
theorem HasTags.entries (h : session.HasTags tags) {entries : List kind.Entry}
    (hEntries : session.entries kind source = .ok (entries, after)) :
    after.HasTags (tags.set kind source.key (session.tagAt tags kind source.key none)) ∧
      ∀ entry ∈ entries, kind.file entry = session.tagAt tags kind source.key none := by
  rcases entries_cases session kind source with
    ⟨found, hGet, hEq⟩ | ⟨hGet, lines, opened, hLines, hEq⟩ | ⟨-, _, -, hEq⟩
  · rw [hEq] at hEntries
    cases hEntries
    rw [tagAt_of_some hGet, Tags.set_same]
    exact ⟨h, h.get? hGet⟩
  · rw [hEq] at hEntries
    cases hEntries
    have hNew := file_entriesWith (opened.tree source.key lines).1 lines kind
    rw [tagAt_of_none hGet]
    exact ⟨((h.lines hLines).tree source.key lines).rememberEntries hNew source.key, hNew⟩
  · rw [hEq] at hEntries
    exact absurd hEntries (by simp)

end HasTags

/-! ## Sessions without tags -/

/-- No entry that is remembered says which file it is from. -/
def IsUntagged (session : Session) : Prop :=
  ∀ kind key record, session.cache.record? (.entries kind) key = some record →
    ∀ entry ∈ record.value, kind.file entry = none

section IsUntagged

variable {session after : Session}

theorem isUntagged_iff : session.IsUntagged ↔ session.HasTags fun _ _ => none := Iff.rfl

theorem IsUntagged.lines (h : session.IsUntagged) {source : Source} {lines : List String}
    (hLines : session.lines source = .ok (lines, after)) : after.IsUntagged :=
  HasTags.lines (isUntagged_iff.mp h) hLines

/-- The entries that a query answers with do not say which file they are from. -/
theorem IsUntagged.entries (h : session.IsUntagged) {kind : EntryKind} {source : Source}
    {entries : List kind.Entry} (hEntries : session.entries kind source = .ok (entries, after)) :
    after.IsUntagged ∧ ∀ entry ∈ entries, kind.file entry = none := by
  have hTagged := HasTags.entries (isUntagged_iff.mp h) hEntries
  rw [tagAt_self session (fun _ _ => none) kind source.key, Tags.set_same] at hTagged
  exact hTagged

/-- Forgetting keeps what is left as it is. -/
theorem IsUntagged.of_records (h : session.IsUntagged)
    (hRecords : ∀ slot key record, after.cache.record? slot key = some record →
      session.cache.record? slot key = some record) : after.IsUntagged :=
  HasTags.of_records (isUntagged_iff.mp h) hRecords

end IsUntagged

end Session

end YamlIndex
