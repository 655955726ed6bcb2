import YamlIndex.Proofs.Volume.Names
import YamlIndex.Volume.Descent
import Mathlib.Data.List.Nodup

/-!
# Well-formed trees

Every directory of a well-formed tree has each name once, and every name is one step of a path.  The
empty tree is well-formed, and whatever is written, made or removed leaves a well-formed tree, so
every volume that comes about that way has one.  In such a tree what stands under a name and what is
among the entries are the same.

## Main results

* `IsWellFormed.lookup_eq_some_iff`: what a name leads to is the entry with that name.
* `IsWellFormed.of_find?`: what is found is well-formed, and what leads to it is a chain of names.
* `IsWellFormed.put`: putting a tree at a place keeps a tree well-formed.
* `IsWellFormed.remove`: so does removing what stands at a place.
-/

namespace YamlIndex.FileTree

theorem find?_cons (tree : FileTree) (name : String) (rest : List String) :
    tree.find? (name :: rest) = (tree.entries.lookup name).bind fun child => child.find? rest := by
  cases tree with
  | file contents => rfl
  | directory entries => rfl

theorem find?_concat {tree below : FileTree} {location : List String}
    (h : tree.find? location = some below) (name : String) :
    tree.find? (location ++ [name]) = below.entries.lookup name := by
  rw [find?_append, h, Option.bind_some, find?_cons]
  cases below.entries.lookup name with
  | none => rfl
  | some child => rfl

theorem isDirectory_of_mem {tree : FileTree} {entry : String × FileTree}
    (h : entry ∈ tree.entries) : tree.isDirectory = true := by
  cases tree with
  | file contents => exact absurd h (by simp [entries])
  | directory entries => rfl

theorem mem_of_lookup {entries : List (String × FileTree)} {name : String} {child : FileTree}
    (h : entries.lookup name = some child) : (name, child) ∈ entries := by
  obtain ⟨front, back, rfl, -⟩ := List.lookup_eq_some_iff.mp h
  simp

/-- Whether each directory of a tree has each of its names once, and all of them are steps of
paths. -/
inductive IsWellFormed : FileTree → Prop where
  | file (contents : Contents) : IsWellFormed (file contents)
  | directory {entries : List (String × FileTree)} (distinct : (entries.map Prod.fst).Nodup)
      (proper : ∀ entry ∈ entries, IsName entry.1)
      (below : ∀ entry ∈ entries, IsWellFormed entry.2) : IsWellFormed (directory entries)

theorem IsWellFormed.nodup {tree : FileTree} (h : tree.IsWellFormed) :
    (tree.entries.map Prod.fst).Nodup := by
  cases h with
  | file contents => exact List.nodup_nil
  | directory distinct proper below => exact distinct

theorem IsWellFormed.isName {tree : FileTree} (h : tree.IsWellFormed)
    {entry : String × FileTree} (hEntry : entry ∈ tree.entries) : IsName entry.1 := by
  cases h with
  | file contents => exact absurd hEntry (by simp [entries])
  | directory distinct proper below => exact proper entry hEntry

theorem IsWellFormed.of_mem {tree : FileTree} (h : tree.IsWellFormed)
    {entry : String × FileTree} (hEntry : entry ∈ tree.entries) : entry.2.IsWellFormed := by
  cases h with
  | file contents => exact absurd hEntry (by simp [entries])
  | directory distinct proper below => exact below entry hEntry

/-- Induction on a tree by the entries of its directories; a file has none. -/
@[elab_as_elim]
theorem IsWellFormed.induction {motive : (tree : FileTree) → tree.IsWellFormed → Prop}
    (step : ∀ (tree : FileTree) (h : tree.IsWellFormed),
      (∀ entry (hEntry : entry ∈ tree.entries), motive entry.2 (h.of_mem hEntry)) → motive tree h)
    {tree : FileTree} (h : tree.IsWellFormed) : motive tree h := by
  induction h with
  | file contents => exact step _ (.file contents) (by simp [entries])
  | directory distinct proper below ih => exact step _ (.directory distinct proper below) ih

theorem IsWellFormed.lookup_eq_some_iff {tree : FileTree} (h : tree.IsWellFormed) {name : String}
    {child : FileTree} : tree.entries.lookup name = some child ↔ (name, child) ∈ tree.entries := by
  refine ⟨mem_of_lookup, fun hMem => ?_⟩
  have hNodup := h.nodup
  obtain ⟨front, back, hEntries⟩ := List.append_of_mem hMem
  rw [hEntries, List.map_append, List.map_cons, List.nodup_append] at hNodup
  rw [hEntries]
  refine List.lookup_eq_some_iff.mpr ⟨front, back, rfl, fun entry hEntry => ?_⟩
  have hNe := hNodup.2.2 entry.1 (List.mem_map_of_mem hEntry) name (by simp)
  exact bne_iff_ne.mpr (Ne.symm hNe)

theorem IsWellFormed.of_find? {tree below : FileTree} (h : tree.IsWellFormed)
    {location : List String} (hFind : tree.find? location = some below) :
    below.IsWellFormed ∧ ∀ name ∈ location, IsName name := by
  induction location generalizing tree with
  | nil =>
      rw [find?, Option.some.injEq] at hFind
      exact ⟨hFind ▸ h, by simp⟩
  | cons first rest ih =>
      rw [find?_cons, Option.bind_eq_some_iff] at hFind
      obtain ⟨child, hChild, hFind⟩ := hFind
      have hMem := h.lookup_eq_some_iff.mp hChild
      obtain ⟨hBelow, hRest⟩ := ih (h.of_mem hMem) hFind
      refine ⟨hBelow, fun name hName => ?_⟩
      rcases List.mem_cons.mp hName with rfl | hName
      · exact h.isName hMem
      · exact hRest name hName

/-! ## Changes -/

theorem map_fst_setEntry (name : String) (tree : FileTree) (entries : List (String × FileTree)) :
    (setEntry name tree entries).map Prod.fst =
      if name ∈ entries.map Prod.fst then entries.map Prod.fst
      else entries.map Prod.fst ++ [name] := by
  induction entries with
  | nil => rfl
  | cons entry entries ih =>
      obtain ⟨other, old⟩ := entry
      rw [setEntry]
      by_cases h : other = name
      · simp [h]
      · rw [if_neg h, List.map_cons, ih]
        by_cases hIn : name ∈ entries.map Prod.fst
        · rw [if_pos hIn, if_pos (by simp [hIn])]
          rfl
        · rw [if_neg hIn, if_neg (by simpa [Ne.symm h] using hIn)]
          rfl

theorem nodup_setEntry {entries : List (String × FileTree)} (h : (entries.map Prod.fst).Nodup)
    (name : String) (tree : FileTree) : ((setEntry name tree entries).map Prod.fst).Nodup := by
  rw [map_fst_setEntry]
  by_cases hIn : name ∈ entries.map Prod.fst
  · rwa [if_pos hIn]
  · rw [if_neg hIn]
    rw [← List.concat_eq_append]
    exact h.concat hIn

theorem mem_setEntry {name : String} {tree : FileTree} {entries : List (String × FileTree)}
    {entry : String × FileTree} (h : entry ∈ setEntry name tree entries) :
    entry = (name, tree) ∨ entry ∈ entries := by
  induction entries with
  | nil => exact .inl (List.mem_singleton.mp h)
  | cons first entries ih =>
      obtain ⟨other, old⟩ := first
      rw [setEntry] at h
      split at h
      · exact (List.mem_cons.mp h).imp_right (List.mem_cons_of_mem _)
      · rcases List.mem_cons.mp h with hFirst | hRest
        · exact .inr (hFirst ▸ List.mem_cons_self ..)
        · exact (ih hRest).imp_right (List.mem_cons_of_mem _)

theorem IsWellFormed.empty : IsWellFormed empty :=
  .directory List.nodup_nil (by simp) (by simp)

theorem IsWellFormed.setEntry {entries : List (String × FileTree)} {new : FileTree}
    (h : (FileTree.directory entries).IsWellFormed) (hNew : new.IsWellFormed) {name : String}
    (hName : IsName name) :
    (FileTree.directory (FileTree.setEntry name new entries)).IsWellFormed := by
  cases h with
  | directory distinct proper below =>
      refine .directory (nodup_setEntry distinct name new) (fun entry hEntry => ?_)
        fun entry hEntry => ?_
      · rcases mem_setEntry hEntry with rfl | hOld
        · exact hName
        · exact proper entry hOld
      · rcases mem_setEntry hEntry with rfl | hOld
        · exact hNew
        · exact below entry hOld

theorem IsWellFormed.put {tree new : FileTree} (h : tree.IsWellFormed) (hNew : new.IsWellFormed)
    {location : List String} (hLocation : ∀ name ∈ location, IsName name) :
    (FileTree.put location new tree).IsWellFormed := by
  induction location generalizing tree with
  | nil => exact hNew
  | cons name rest ih =>
      have hName := hLocation name List.mem_cons_self
      have hRest {tree : FileTree} (hTree : tree.IsWellFormed) :=
        ih hTree fun other hOther => hLocation other (List.mem_cons_of_mem _ hOther)
      cases h with
      | file contents => exact IsWellFormed.empty.setEntry (hRest .empty) hName
      | @directory entries distinct proper below =>
          refine IsWellFormed.setEntry (.directory distinct proper below) (hRest ?_) hName
          cases hLookup : entries.lookup name with
          | none => exact .empty
          | some child => exact below _ (mem_of_lookup hLookup)

theorem IsWellFormed.write {tree : FileTree} (h : tree.IsWellFormed) {location : List String}
    (hLocation : ∀ name ∈ location, IsName name) (contents : Contents) :
    (tree.write location contents).IsWellFormed :=
  h.put (.file contents) hLocation

theorem IsWellFormed.makeDirectory {tree : FileTree} (h : tree.IsWellFormed)
    {location : List String} (hLocation : ∀ name ∈ location, IsName name) :
    (FileTree.makeDirectory location tree).IsWellFormed := by
  rw [FileTree.makeDirectory]
  split
  · exact h
  · exact h.put .empty hLocation

theorem IsWellFormed.remove {tree : FileTree} (h : tree.IsWellFormed) (location : List String) :
    (FileTree.remove location tree).IsWellFormed := by
  induction location generalizing tree with
  | nil => exact h
  | cons name rest ih =>
      cases h with
      | file contents => exact .file contents
      | @directory entries distinct proper below =>
          cases rest with
          | nil =>
              rw [FileTree.remove]
              have hSub {entry : String × FileTree}
                  (hEntry : entry ∈ entries.filter fun other => other.1 != name) :
                  entry ∈ entries := List.mem_of_mem_filter hEntry
              refine .directory ?_ (fun entry hEntry => proper entry (hSub hEntry))
                fun entry hEntry => below entry (hSub hEntry)
              exact distinct.sublist (List.Sublist.map _ List.filter_sublist)
          | cons next others =>
              rw [FileTree.remove]
              cases hLookup : entries.lookup name with
              | none => exact .directory distinct proper below
              | some child =>
                  have hMem := mem_of_lookup hLookup
                  exact IsWellFormed.setEntry (.directory distinct proper below)
                    (ih (below _ hMem)) (proper _ hMem)

end YamlIndex.FileTree
