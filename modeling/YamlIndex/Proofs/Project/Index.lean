import YamlIndex.Proofs.Project.Paths

/-!
# The index of a scanner

What a scanner finds in a file depends on the text of the file alone, and its index is made of what
it finds, file by file in the order of the listing.  Each file of the listing is in the index or
among what it skips, and never in both.

## Main results

* `toOption_readLines`: a file has lines when it is a text that is not too large.
* `entries_indexFor`: the index is made file by file.
* `isMadeOf_indexFor`: what an index is made of.
-/

namespace YamlIndex

open Project (Index Scanner)

/-! ## What a scanner finds -/

namespace Project.Scanner

/-- The text of a file that is not too large; none for octets that are no text. -/
def textAt? (scanner : Scanner) (location : Location) : Option String :=
  match scanner.volume.find? location with
  | some (.file (.text s)) => if s.utf8ByteSize ≤ scanner.options.maxSize then some s else none
  | _ => none

theorem path_metaOf (scanner : Scanner) (location : Location) :
    (scanner.metaOf location).path = scanner.pathOf location := by
  rw [metaOf, FileMeta.ofPath]

/-- The entries of one kind that the scanner finds in a file, each as one of the file. -/
def entriesAt (scanner : Scanner) (reader : Option Reader) (kind : EntryKind)
    (location : Location) : List kind.Entry :=
  match scanner.textAt? location with
  | none => []
  | some s =>
    let lines := Text.linesOf s
    (entriesWith (readTree reader lines) lines kind).map (kind.within · (scanner.metaOf location))

theorem entriesAt_eq_flatMap {scanner : Scanner} (reader : Option Reader) (kind : EntryKind)
    (location : Location) :
    scanner.entriesAt reader kind location =
      (scanner.textAt? location).toList.flatMap fun s =>
        (entriesWith (readTree reader (Text.linesOf s)) (Text.linesOf s) kind).map
          (kind.within · (scanner.metaOf location)) := by
  rw [entriesAt]
  cases scanner.textAt? location with
  | none => rfl
  | some s => exact (List.append_nil _).symm

theorem toOption_readLines (scanner : Scanner) (location : Location) :
    (scanner.readLines location).toOption = (scanner.textAt? location).map Text.linesOf := by
  rw [readLines, textAt?, Volume.size, Volume.readText]
  cases scanner.volume.find? location with
  | none => rfl
  | some tree =>
      cases tree with
      | directory entries =>
          simp [Except.mapError, bind, Except.bind, Except.toOption]
      | file contents =>
          simp only [Except.mapError, bind, Except.bind]
          by_cases hLarge : contents.size > scanner.options.maxSize
          · rw [if_pos hLarge]
            cases contents with
            | text s =>
                have hNot : ¬s.utf8ByteSize ≤ scanner.options.maxSize := Nat.not_le.mpr hLarge
                simp [Except.toOption, hNot]
            | binary octets => simp [Except.toOption]
          · rw [if_neg hLarge]
            cases contents with
            | text s =>
                have hFits : s.utf8ByteSize ≤ scanner.options.maxSize := Nat.not_lt.mp hLarge
                simp [Except.toOption, hFits, pure, Except.pure]
            | binary octets => simp [Except.toOption]

theorem textAt?_of_readLines {scanner : Scanner} {location : Location} {lines : List String}
    (h : scanner.readLines location = .ok lines) :
    ∃ s, scanner.textAt? location = some s ∧ lines = Text.linesOf s := by
  have hOption := toOption_readLines scanner location
  rw [h, Except.toOption, eq_comm, Option.map_eq_some_iff] at hOption
  obtain ⟨s, hText, hLines⟩ := hOption
  exact ⟨s, hText, hLines.symm⟩

theorem textAt?_of_error {scanner : Scanner} {location : Location} {error : ScanError}
    (h : scanner.readLines location = .error error) : scanner.textAt? location = none := by
  have hOption := toOption_readLines scanner location
  rw [h, Except.toOption, eq_comm, Option.map_eq_none_iff] at hOption
  exact hOption

end Project.Scanner

/-! ## The index of a scanner -/

namespace Project

/-- Whether an index is made of the given files, one after the other, and has each of them once. -/
structure Index.IsMadeOf (index : Index) (scanner : Scanner) (reader : Option Reader)
    (files : List Location) : Prop where
  paths : index.paths = files.flatMap fun location =>
    (scanner.textAt? location).toList.flatMap fun s =>
      (extractPaths reader (Text.linesOf s)).map (·.within (scanner.metaOf location))
  values : index.values = files.flatMap fun location =>
    (scanner.textAt? location).toList.flatMap fun s =>
      (extractValues reader (Text.linesOf s)).map (·.within (scanner.metaOf location))
  once : ∀ location ∈ files,
    (index.files.map FileMeta.path ++ index.skipped).count (scanner.pathOf location) = 1
  files : index.files = (files.filter fun location => (scanner.textAt? location).isSome).map
    scanner.metaOf

namespace Scanner

variable {scanner : Scanner} {reader : Option Reader} {listing : Volume.Listing}

/-- The index of a listing. -/
def indexFor (scanner : Scanner) (reader : Option Reader) (listing : Volume.Listing) : Index :=
  let index := indexOf reader (listing.files.map scanner.openFile)
  { index with skipped := listing.unreadable.map scanner.pathOf ++ index.skipped }

theorem scan_of_list (reader : Option Reader) (hList : scanner.list = .ok listing) :
    scanner.scan reader = .ok (scanner.indexFor reader listing) := by
  rw [scan, hList]
  rfl

theorem scan_of_error {error : ScanError} (hList : scanner.list = .error error) :
    scanner.scan reader = .error error := by
  rw [scan, hList]
  rfl

theorem lines_openFile (location : Location) :
    (scanner.openFile location).lines = (scanner.textAt? location).map Text.linesOf :=
  toOption_readLines scanner location

theorem file_openFile (location : Location) :
    (scanner.openFile location).file = scanner.metaOf location := rfl

theorem entriesAt_openFile (reader : Option Reader) (kind : EntryKind) (location : Location) :
    scanner.entriesAt reader kind location =
      (((scanner.openFile location).lines.map fun lines =>
        entriesWith (readTree reader lines) lines kind).getD []).map
          (kind.within · (scanner.openFile location).file) := by
  rw [lines_openFile, file_openFile, entriesAt]
  cases scanner.textAt? location with
  | none => rfl
  | some s => rfl

theorem entries_indexFor (kind : EntryKind) : (scanner.indexFor reader listing).entries kind =
    listing.files.flatMap (scanner.entriesAt reader kind) := by
  have hIndex : (scanner.indexFor reader listing).entries kind =
      entriesOf reader kind (listing.files.map scanner.openFile) := by
    cases kind <;> rfl
  rw [hIndex, entriesOf, List.flatMap_map, funext (entriesAt_openFile reader kind)]

theorem entries_indexFor_eq_flatMap (kind : EntryKind) :
    (scanner.indexFor reader listing).entries kind =
      listing.files.flatMap fun location => (scanner.textAt? location).toList.flatMap fun s =>
        (entriesWith (readTree reader (Text.linesOf s)) (Text.linesOf s) kind).map
          (kind.within · (scanner.metaOf location)) := by
  rw [entries_indexFor, funext (entriesAt_eq_flatMap reader kind)]

theorem files_indexFor : (scanner.indexFor reader listing).files =
    (listing.files.filter fun location => (scanner.textAt? location).isSome).map
      scanner.metaOf := by
  have hPiece (location : Location) :
      ((scanner.openFile location).lines.map fun _ => (scanner.openFile location).file) =
        (Option.guard (fun location => (scanner.textAt? location).isSome) location).map
          scanner.metaOf := by
    rw [lines_openFile, file_openFile]
    cases hText : scanner.textAt? location with
    | none => simp [Option.guard, hText]
    | some s => simp [Option.guard, hText]
  simp only [indexFor, indexOf, List.filterMap_map, ← List.filterMap_eq_filter,
    List.map_filterMap, Function.comp_def, hPiece]

theorem skipped_indexFor : (scanner.indexFor reader listing).skipped =
    listing.unreadable.map scanner.pathOf ++
      (listing.files.filter fun location => !(scanner.textAt? location).isSome).map
        scanner.pathOf := by
  simp only [indexFor, indexOf, List.filterMap_map, ← List.filterMap_eq_filter,
    List.map_filterMap, Function.comp_def]
  congr 2
  funext location
  rw [lines_openFile, file_openFile, path_metaOf]
  cases hText : scanner.textAt? location with
  | none => simp [Option.guard, hText]
  | some s => simp [Option.guard, hText]

/-- The files of an index and what it skips are the listing. -/
theorem perm_indexFor :
    ((scanner.indexFor reader listing).files.map FileMeta.path ++
      (scanner.indexFor reader listing).skipped).Perm
        ((listing.unreadable ++ listing.files).map scanner.pathOf) := by
  have hFiles : (scanner.indexFor reader listing).files.map FileMeta.path =
      (listing.files.filter fun location => (scanner.textAt? location).isSome).map
        scanner.pathOf := by
    rw [files_indexFor, List.map_map]
    exact List.map_congr_left fun location _ => path_metaOf scanner location
  have hParts := List.filter_append_perm
    (fun location => (scanner.textAt? location).isSome) listing.files
  rw [hFiles, skipped_indexFor, ← List.map_append, ← List.map_append, ← List.append_assoc]
  refine List.Perm.map _ ((List.perm_append_comm.append_right _).trans ?_)
  rw [List.append_assoc]
  exact hParts.append_left _

theorem isMadeOf_indexFor (hTree : scanner.volume.tree.IsWellFormed)
    (hList : scanner.list = .ok listing) :
    (scanner.indexFor reader listing).IsMadeOf scanner reader listing.files where
  paths := entries_indexFor_eq_flatMap .path
  values := entries_indexFor_eq_flatMap .value
  once location hLocation := by
    have hPerm : ((scanner.indexFor reader listing).files.map FileMeta.path ++
        (scanner.indexFor reader listing).skipped).Perm
          ((listing.unreadable ++ listing.files).map scanner.pathOf) := perm_indexFor
    rw [hPerm.count_eq]
    refine List.count_eq_one_of_mem (nodup_map_pathOf hTree hList) ?_
    exact List.mem_map_of_mem (List.mem_append_right _ hLocation)
  files := files_indexFor

end Scanner

end Project

end YamlIndex
