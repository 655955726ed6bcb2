import YamlIndex.Project.Scanner
import YamlIndex.Proofs.Text.Splitting
import Mathlib.Data.List.TakeDrop
import Mathlib.Data.List.TakeWhile

/-!
# Listed files have an extension

A scanner lists a file only for its extension, and an extension stands behind a dot.  The path that
a listed file is reported under therefore holds a dot, whatever the base directory is.

## Main results

* `dot_mem_path_of_mem_list`: the path of a listed file holds a dot.
-/

namespace YamlIndex

namespace FilePath

theorem eq_of_innerPiece {s text : List Char} (h : (innerPiece s).1 = some (.name text)) :
    text = s := by
  rw [innerPiece] at h
  split at h
  · exact absurd h (by simp)
  · split at h
    · exact absurd h (by simp)
    · exact (Component.name.inj (Option.some.inj h)).symm

/-- A name in a path is made of the characters of the path. -/
theorem mem_of_mem_components {s text : List Char} {c : Char}
    (h : Component.name text ∈ components s) (hc : c ∈ text) : c ∈ s := by
  have hInner : ∀ {all : List (List Char)} {piece : Piece}, piece ∈ all.map innerPiece →
      piece.1 = some (.name text) → text ∈ all := by
    intro all piece hPiece hName
    obtain ⟨part, hPart, rfl⟩ := List.mem_map.mp hPiece
    exact eq_of_innerPiece hName ▸ hPart
  obtain ⟨piece, hPiece, hName⟩ := List.mem_filterMap.mp h
  unfold pieces at hPiece
  split at hPiece
  · rcases List.mem_cons.mp hPiece with rfl | hPiece
    · exact absurd hName (by simp)
    · exact List.mem_cons_of_mem _ (Text.mem_splitAll (hInner hPiece hName) hc).1
  · unfold relativePieces at hPiece
    split at hPiece
    · rename_i rest hSplit
      rcases List.mem_cons.mp hPiece with rfl | hPiece
      · exact absurd hName (by simp)
      · have hText : text ∈ Text.splitAll '/' s :=
          hSplit ▸ List.mem_cons_of_mem _ (hInner hPiece hName)
        exact (Text.mem_splitAll hText hc).1
    · exact (Text.mem_splitAll (hInner hPiece hName) hc).1

/-- An extension stands behind a dot. -/
theorem dot_mem_of_extension? {path ext : String} (h : extension? path = some ext) :
    '.' ∈ path.toList := by
  simp only [extension?, bind, Option.bind_eq_some_iff] at h
  obtain ⟨name, hName, hExt⟩ := h
  have hDot : '.' ∈ name.toList := by
    rw [List.span_eq_takeWhile_dropWhile] at hExt
    dsimp only at hExt
    split at hExt
    · rename_i first second rest hDrop
      have hHead : first = '.' := by
        have hNot := List.head_dropWhile_not (· != '.') (l := name.toList.reverse)
          (by rw [hDrop]; simp)
        simpa [hDrop] using hNot
      have hMem : first ∈ name.toList.reverse.dropWhile (· != '.') :=
        hDrop ▸ List.mem_cons_self
      have hReverse := (List.dropWhile_sublist _).subset hMem
      rw [hHead, List.mem_reverse] at hReverse
      exact hReverse
    · exact absurd hExt (by simp)
  rw [fileName?] at hName
  split at hName
  · rename_i text hLast
    cases hName
    rw [String.toList_ofList] at hDot
    exact mem_of_mem_components (List.mem_of_getLast? hLast) hDot
  · exact absurd hName (by simp)

theorem mem_join {base path : String} {c : Char} (h : c ∈ path.toList) :
    c ∈ (join base path).toList := by
  rw [join]
  split
  · exact h
  · split
    · rw [String.toList_append]
      exact List.mem_append_right _ h
    · rw [String.toList_append]
      exact List.mem_append_right _ h

end FilePath

namespace Project.Scanner

theorem dot_mem_path_of_mem_list {scanner : Scanner} {listing : Volume.Listing}
    (h : scanner.list = .ok listing) {location : Location} (hLocation : location ∈ listing.files) :
    '.' ∈ (scanner.metaOf location).path.toList := by
  have hAdmits : scanner.options.admits location.text = true := by
    rw [list, Volume.listFiles] at h
    cases hWalk : scanner.volume.walk scanner.options.walk scanner.root with
    | error error =>
        rw [hWalk] at h
        exact absurd h (by simp [Except.map, Except.mapError])
    | ok visits =>
        rw [hWalk] at h
        cases h
        obtain ⟨visit, -, hVisit⟩ := List.mem_filterMap.mp hLocation
        split at hVisit
        · split at hVisit
          · rename_i hWanted
            cases hVisit
            exact hWanted
          · exact absurd hVisit (by simp)
        · exact absurd hVisit (by simp)
  have hDot : '.' ∈ location.text.toList := by
    rw [Options.admits] at hAdmits
    split at hAdmits
    · exact absurd hAdmits (by simp)
    · rename_i ext hExt
      exact FilePath.dot_mem_of_extension? hExt
  have hRelative : '.' ∈ location.text.toList.dropWhile (· == '/') := by
    rw [← List.takeWhile_append_dropWhile (p := (· == '/')) (l := location.text.toList),
      List.mem_append] at hDot
    rcases hDot with hSlashes | hRest
    · have hSlash := List.mem_takeWhile_imp hSlashes
      exact absurd hSlash (by decide)
    · exact hRest
  rw [metaOf, FileMeta.ofPath]
  dsimp only
  rw [pathOf]
  refine FilePath.mem_join ?_
  rw [String.toList_ofList]
  exact hRelative

end Project.Scanner

end YamlIndex
