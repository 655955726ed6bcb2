import YamlIndex.Project.Scanner
import YamlIndex.Proofs.Walk.Listing

/-!
# The paths of a project

A scanner reports a location under its text, taken below the base directory.  On a well-formed
volume the text tells the location, and joining it to the base loses nothing of it, so no two
locations of a listing have the same path, whatever the base is.

## Main results

* `pathOf_injective`: the path that a location is reported under tells the location.
* `nodup_map_pathOf`: a listing has each path once, over its files and its unreadable directories.
-/

namespace YamlIndex

namespace FilePath

theorem join_injective {base path other : String} (hPath : path.toList.head? ≠ some '/')
    (hOther : other.toList.head? ≠ some '/') (h : join base path = join base other) :
    path = other := by
  rw [join, join, if_neg hPath, if_neg hOther] at h
  rw [← String.toList_inj] at h ⊢
  split at h
  · simpa using h
  · simpa using h

end FilePath

namespace Location

/-- A location below the root, as its text without the slash in front. -/
theorem text_eq_cons {location : Location} (hNe : location ≠ [])
    (hNames : ∀ name ∈ location, IsName name) :
    ∃ rest, location.text.toList = '/' :: rest ∧ rest.head? ≠ some '/' ∧
      location.text.toList.dropWhile (· == '/') = rest := by
  obtain ⟨name, others, rfl⟩ := List.exists_cons_of_ne_nil hNe
  obtain ⟨hName, hSlash⟩ := hNames name List.mem_cons_self
  obtain ⟨c, cs, hCons⟩ : ∃ c cs, name.toList = c :: cs := by
    apply List.exists_cons_of_ne_nil
    intro hNil
    exact hName (String.toList_inj.mp hNil)
  have hFirst : c ≠ '/' := by
    rintro rfl
    exact hSlash (hCons ▸ List.mem_cons_self)
  have hText := text_cons name others
  rw [hCons, List.cons_append] at hText
  refine ⟨_, hText, by simpa using hFirst, ?_⟩
  rw [hText, List.dropWhile_cons_of_pos (by decide),
    List.dropWhile_cons_of_neg (by simpa using hFirst)]

end Location

namespace Project.Scanner

variable {scanner : Scanner}

theorem pathOf_injective {location other : Location} (hLocation : location ≠ [])
    (hOther : other ≠ []) (hNames : ∀ name ∈ location, IsName name)
    (hNames' : ∀ name ∈ other, IsName name) (h : scanner.pathOf location = scanner.pathOf other) :
    location = other := by
  obtain ⟨rest, hText, hHead, hDrop⟩ := Location.text_eq_cons hLocation hNames
  obtain ⟨rest', hText', hHead', hDrop'⟩ := Location.text_eq_cons hOther hNames'
  rw [pathOf, pathOf, hDrop, hDrop'] at h
  have hRest := FilePath.join_injective (by rwa [String.toList_ofList])
    (by rwa [String.toList_ofList]) h
  rw [String.ofList_inj] at hRest
  apply Location.text_injective hNames hNames'
  rw [← String.toList_inj, hText, hText', hRest]

/-- A listing of a scanner is one of its volume. -/
theorem listFiles_of_list {listing : Volume.Listing} (h : scanner.list = .ok listing) :
    ∃ wanted, scanner.volume.listFiles scanner.options.walk scanner.root wanted = .ok listing := by
  rw [list] at h
  cases hFiles : scanner.volume.listFiles scanner.options.walk scanner.root
      (fun location => scanner.options.admits location.text) with
  | error error => simp [hFiles, Except.mapError] at h
  | ok found =>
      rw [hFiles, Except.mapError, Except.ok.injEq] at h
      exact ⟨_, h ▸ hFiles⟩

section Listing

variable {listing : Volume.Listing}

/-- Files and unreadable directories of a listing are told apart by what stands there. -/
theorem nodup_listing (hTree : scanner.volume.tree.IsWellFormed)
    (hList : scanner.list = .ok listing) : (listing.unreadable ++ listing.files).Nodup := by
  obtain ⟨wanted, hFiles⟩ := listFiles_of_list hList
  obtain ⟨hOrder, hOrder'⟩ := Volume.pairwise_listFiles hTree hFiles
  refine List.nodup_append.mpr
    ⟨Location.nodup_of_precedes hOrder', Location.nodup_of_precedes hOrder, ?_⟩
  rintro location hUnreadable other hFile rfl
  obtain ⟨below, hFound, hDirectory⟩ := Volume.isDirectory_iff.mp
    (Volume.isDirectory_of_mem_listFiles hTree hFiles hUnreadable).2
  obtain ⟨below', hFound', hNot⟩ := Volume.isFile_iff.mp
    (Volume.isFile_of_mem_listFiles hTree hFiles hFile).2
  rw [hFound, Option.some.injEq] at hFound'
  rw [← hFound', hDirectory] at hNot
  exact absurd hNot (by simp)

/-- What is listed is below the root of the volume and is reached through names. -/
theorem isName_of_mem_listing (hTree : scanner.volume.tree.IsWellFormed)
    (hList : scanner.list = .ok listing) {location : Location}
    (h : location ∈ listing.unreadable ++ listing.files) :
    location ≠ [] ∧ ∀ name ∈ location, IsName name := by
  obtain ⟨wanted, hFiles⟩ := listFiles_of_list hList
  obtain ⟨hNe, below, hFound⟩ : location ≠ [] ∧
      ∃ below, scanner.volume.find? location = some below := by
    rcases List.mem_append.mp h with hUnreadable | hFile
    · obtain ⟨hNe, hDirectory⟩ := Volume.isDirectory_of_mem_listFiles hTree hFiles hUnreadable
      obtain ⟨below, hFound, -⟩ := Volume.isDirectory_iff.mp hDirectory
      exact ⟨hNe, below, hFound⟩
    · obtain ⟨hNe, hIs⟩ := Volume.isFile_of_mem_listFiles hTree hFiles hFile
      obtain ⟨below, hFound, -⟩ := Volume.isFile_iff.mp hIs
      exact ⟨hNe, below, hFound⟩
  exact ⟨hNe, (hTree.of_find? hFound).2⟩

/-- A listing has each path once. -/
theorem nodup_map_pathOf (hTree : scanner.volume.tree.IsWellFormed)
    (hList : scanner.list = .ok listing) :
    ((listing.unreadable ++ listing.files).map scanner.pathOf).Nodup := by
  refine (nodup_listing hTree hList).map_on fun location hLocation other hOther hPath => ?_
  obtain ⟨hNe, hNames⟩ := isName_of_mem_listing hTree hList hLocation
  obtain ⟨hNe', hNames'⟩ := isName_of_mem_listing hTree hList hOther
  exact pathOf_injective hNe hNe' hNames hNames' hPath

end Listing

end Project.Scanner

end YamlIndex
