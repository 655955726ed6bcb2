import YamlIndex.Volume

/-!
# Changes of a volume

Two states of a volume are compared file by file, so that the files that have changed can be written
back to where they came from.
-/

namespace YamlIndex

namespace FileTree

mutual

/-- The files of a tree that stands at a location. -/
def filesBelow (location : Location) : FileTree → List (Location × Contents)
  | .file contents => [(location, contents)]
  | .directory entries => filesOfEntries location entries

/-- The files of the entries of a directory. -/
def filesOfEntries (location : Location) : List (String × FileTree) → List (Location × Contents)
  | [] => []
  | (name, tree) :: rest => tree.filesBelow (location ++ [name]) ++ filesOfEntries location rest

end

end FileTree

namespace Volume

/-- Whether a file with the given contents stands at a location. -/
def holds (volume : Volume) (location : Location) (contents : Contents) : Bool :=
  match volume.find? location with
  | some (.file old) => old == contents
  | _ => false

/-- The files of the second volume that are not the same on the first one. -/
def changes (before after : Volume) : List (Location × Contents) :=
  (after.tree.filesBelow []).filter fun (location, contents) => !before.holds location contents

end Volume

end YamlIndex
