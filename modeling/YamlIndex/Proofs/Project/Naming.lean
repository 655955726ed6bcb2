import YamlIndex.Proofs.FilePath
import YamlIndex.Proofs.OtherFiles
import YamlIndex.Proofs.Project.Index
import YamlIndex.Proofs.Session.Actions

/-!
# The names of the files of a project

What a scanner says about a file can be undone: the path as seen from the base directory is the text
of the location, joining it to the base gives the path of the file again, and the path tells the
location.  With the root as the base, an editor on the same volume follows the path to the file
itself.  All of this holds for the base as it is written, with its doubled slashes and its dots.

## Main results

* `exists_metaOf_eq`: what a scanner says about a file.
* `locationOf_path`: below the root, the path of a file leads to its location.
* `metaOf_names_location`: the names of a file tell where it is.
-/

namespace YamlIndex

/-- Whether a name is a step of a path that goes down. -/
def LeadsDown (name : String) : Prop :=
  IsName name ∧ name ≠ "." ∧ name ≠ ".."

instance : DecidablePred LeadsDown := fun name =>
  inferInstanceAs (Decidable (IsName name ∧ name ≠ "." ∧ name ≠ ".."))

theorem LeadsDown.goesDown {name : String} (h : LeadsDown name) : GoesDown name.toList := by
  obtain ⟨⟨hEmpty, -⟩, hHere, hUp⟩ := h
  have hText {s : List Char} (hNe : name ≠ String.ofList s) : name.toList ≠ s := by
    rintro rfl
    exact hNe String.ofList_toList.symm
  exact ⟨hText hEmpty, hText hHere, hText hUp⟩

namespace Location

/-- The text of a location below the root is a descending path behind a slash, and its names are
the steps of that path. -/
theorem exists_descends {location : Location} (hNe : location ≠ [])
    (hNames : ∀ name ∈ location, LeadsDown name) :
    ∃ path, Descends path ∧ location.text = "/" ++ path ∧
      String.ofList (location.text.toList.dropWhile (· == '/')) = path ∧
      Text.splitAll '/' path.toList = location.map String.toList := by
  obtain ⟨rest, hText, -, hDrop⟩ := text_eq_cons hNe fun name hName => (hNames name hName).1
  have hSplit : Text.splitAll '/' rest = location.map String.toList := by
    have hAll := splitAll_text fun name hName => (hNames name hName).1
    rw [hText, Text.splitAll_cons_self] at hAll
    exact (List.cons.inj hAll).2
  refine ⟨String.ofList rest, ?_, ?_, by rw [hDrop], by rw [String.toList_ofList, hSplit]⟩
  · intro step hStep
    rw [String.toList_ofList, hSplit] at hStep
    obtain ⟨name, hName, rfl⟩ := List.mem_map.mp hStep
    exact (hNames name hName).goesDown
  · rw [← String.toList_inj, hText]
    simp

end Location

namespace Editor

/-- A descending path taken from the root is followed name by name. -/
theorem locationOf_join_root {path : String} (h : Descends path) :
    locationOf (FilePath.join "/" path) =
      .ok ((Text.splitAll '/' path.toList).map String.ofList) := by
  have hJoin : (FilePath.join "/" path).toList = '/' :: path.toList := by
    rw [FilePath.join, if_neg h.head?_ne]
    simp
  have hDrop : path.toList.dropWhile (· == '/') = path.toList := by
    obtain ⟨c, rest, hCons⟩ := List.exists_cons_of_ne_nil h.ne_nil
    have hHead := h.head?_ne
    rw [hCons] at hHead ⊢
    rw [List.dropWhile_cons_of_neg (by simpa using hHead)]
  rw [locationOf, hJoin, List.dropWhile_cons_of_pos (by decide), hDrop, String.ofList_toList,
    Volume.resolve, Location.follow?_of_descends [] h]
  rfl

section Locate

variable {editor : Editor} {path : String} {location : Location}

/-- A file that is there can be loaded. -/
theorem load_of_locate (h : editor.locate path = .ok location) :
    editor.load (.file path) = .ok (editor.holding path) := by
  simp only [load, pathOf, bind, Except.bind, h]
  rfl

/-- What is read of a file that is there is its text. -/
theorem openText_of_locate (h : editor.locate path = .ok location) :
    editor.openText (.file path) =
      ((editor.volume.readText location).map (location, ·)).mapError .volume := by
  simp only [openText, pathOf, bind, Except.bind, h]
  cases editor.volume.readText location with
  | error error => rfl
  | ok text => rfl

end Locate

end Editor

namespace Project.Scanner

variable {scanner : Scanner} {location : Location}

/-- What a scanner says about a file below the root. -/
theorem exists_metaOf_eq (scanner : Scanner) (hNe : location ≠ [])
    (hNames : ∀ name ∈ location, LeadsDown name) :
    ∃ path, Descends path ∧ location.text = "/" ++ path ∧
      Text.splitAll '/' path.toList = location.map String.toList ∧
      (scanner.metaOf location).path = FilePath.join scanner.base path ∧
      (scanner.metaOf location).relative = path ∧
      location.getLast? = some (scanner.metaOf location).name := by
  obtain ⟨path, hDown, hText, hDrop, hSplit⟩ := Location.exists_descends hNe hNames
  refine ⟨path, hDown, hText, hSplit, ?_, ?_, ?_⟩
  · rw [path_metaOf, pathOf, hDrop]
  · rw [metaOf, FileMeta.ofPath, pathOf, hDrop, FilePath.relativeTo?_join _ hDown]
    rfl
  · obtain ⟨others, last, rfl⟩ := (List.eq_nil_or_concat' location).resolve_left hNe
    rw [metaOf, FileMeta.ofPath, pathOf, hDrop, FilePath.fileName?_join _ hDown, hSplit]
    simp

/-- With the root as the base, the path of a file leads to its location. -/
theorem locationOf_path (hBase : scanner.base = "/") (hNe : location ≠ [])
    (hNames : ∀ name ∈ location, LeadsDown name) :
    Editor.locationOf (scanner.metaOf location).path = .ok location := by
  obtain ⟨path, hDown, -, hSplit, hPath, -⟩ := exists_metaOf_eq scanner hNe hNames
  rw [hPath, hBase, Editor.locationOf_join_root hDown, hSplit, List.map_map]
  exact congrArg _ ((List.map_congr_left fun name _ => String.ofList_toList).trans
    (List.map_id location))

/-- What a scanner says about a file tells where it is, whatever the base directory is: the path as
seen from there is the text of the location without its slash, the name is the last one, and the
path is the one joined to the other.  No other file has the same path, or the same key for what is
remembered about it.  With the root as the base, an editor on the same volume takes the path for
the file itself, and loads and reads it. -/
theorem metaOf_names_location (scanner : Scanner) (location : Location) (hNe : location ≠ [])
    (hNames : ∀ name ∈ location, LeadsDown name) :
    location.text = "/" ++ (scanner.metaOf location).relative ∧
      location.getLast? = some (scanner.metaOf location).name ∧
      FilePath.join scanner.base (scanner.metaOf location).relative =
        (scanner.metaOf location).path ∧
      (∀ other : Location, other ≠ [] → (∀ name ∈ other, LeadsDown name) → other ≠ location →
        (scanner.metaOf other).path ≠ (scanner.metaOf location).path ∧
          (Source.file (scanner.metaOf other).path).key ≠
            (Source.file (scanner.metaOf location).path).key) ∧
      (scanner.base = "/" → ∀ editor : Editor, editor.volume = scanner.volume →
        scanner.volume.isFile location = true →
        editor.locate (scanner.metaOf location).path = .ok location ∧
          editor.load (.file (scanner.metaOf location).path) =
            .ok (editor.holding (scanner.metaOf location).path) ∧
          editor.openText (.file (scanner.metaOf location).path) =
            ((scanner.volume.readText location).map (location, ·)).mapError .volume) := by
  obtain ⟨path, -, hText, -, hPath, hRelative, hName⟩ := exists_metaOf_eq scanner hNe hNames
  refine ⟨by rw [hRelative, hText], hName, by rw [hRelative, hPath], ?_, ?_⟩
  · intro other hNe' hNames' hOther
    have hPaths : (scanner.metaOf other).path ≠ (scanner.metaOf location).path := by
      rw [path_metaOf, path_metaOf]
      exact fun hSame => hOther (pathOf_injective hNe' hNe (fun name hIn => (hNames' name hIn).1)
        (fun name hIn => (hNames name hIn).1) hSame)
    exact ⟨hPaths, hPaths⟩
  · intro hBase editor hVolume hFile
    have hLocate : editor.locate (scanner.metaOf location).path = .ok location := by
      rw [Editor.locate_eq, locationOf_path hBase hNe hNames, hVolume]
      exact if_pos hFile
    rw [← hVolume]
    exact ⟨hLocate, Editor.load_of_locate hLocate, Editor.openText_of_locate hLocate⟩

/-- A base that goes up, stays and ends in slashes, for two files of one name; and the root as the
base. -/
theorem metaOf_names_location_awkward :
    let tree : FileTree := (FileTree.empty.write ["d", ".e", "f.yaml"] (.text "a: 1\n")).write
      ["d", "f.yaml"] (.text "b: 2\n")
    let scanner : Scanner := { volume := { tree }, base := "./../x/.//" }
    let rooted : Scanner := { volume := { tree } }
    let editor : Editor := { volume := { tree } }
    let file := scanner.metaOf ["d", ".e", "f.yaml"]
    file.path = "./../x/.//d/.e/f.yaml" ∧ file.relative = "d/.e/f.yaml" ∧ file.name = "f.yaml" ∧
      FilePath.join scanner.base file.relative = file.path ∧
      (Source.file (scanner.metaOf ["d", "f.yaml"]).path).key ≠ (Source.file file.path).key ∧
      editor.openText (.file (rooted.metaOf ["d", ".e", "f.yaml"]).path) =
        .ok (["d", ".e", "f.yaml"], "a: 1\n") := by
  intro tree scanner rooted editor file
  have hNames : ∀ name ∈ ["d", ".e", "f.yaml"], LeadsDown name := by decide
  obtain ⟨-, -, hJoin, hOthers, -⟩ :=
    metaOf_names_location scanner ["d", ".e", "f.yaml"] (by simp) hNames
  obtain ⟨-, -, -, -, hEditor⟩ :=
    metaOf_names_location rooted ["d", ".e", "f.yaml"] (by simp) hNames
  have hKey := (hOthers ["d", "f.yaml"] (by simp) (by decide) (by simp)).2
  have hFile : rooted.volume.isFile ["d", ".e", "f.yaml"] = true := by decide +kernel
  refine ⟨by decide +kernel, by decide +kernel, by decide +kernel, hJoin, hKey, ?_⟩
  rw [(hEditor rfl editor rfl hFile).2.2]
  decide +kernel

end Project.Scanner

end YamlIndex
