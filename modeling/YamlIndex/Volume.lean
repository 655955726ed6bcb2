import YamlIndex.Volume.FileTree
import YamlIndex.Volume.Location

/-!
# Volumes

A volume is a tree of files of which some directories may refuse to be listed.  Everything else
about such a directory works: what is below it can be read and written by name.

## Main results

* `readText_write`: a text that was written is read back.
-/

namespace YamlIndex

/-- A tree of files, and the directories that refuse to be listed. -/
structure Volume where
  tree : FileTree := .empty
  /-- The texts of the locations that cannot be listed. -/
  locked : List String := []
  deriving Repr

/-- What can go wrong on a volume. -/
inductive VolumeError where
  /-- A path that leads nowhere. -/
  | invalidPath (path : String)
  | notText (location : Location)
  | notFile (location : Location)
  | notFound (location : Location)
  | notListed (location : Location)
  deriving DecidableEq, Repr

/-- What is said about an error. -/
def VolumeError.message : VolumeError → String
  | invalidPath path => "An error occured for '" ++ path ++ "': The path is invalid"
  | notText location =>
    "Could not read path for '" ++ location.text ++
      "': IO error: stream did not contain valid UTF-8"
  | notFile location =>
    "Could not read path for '" ++ location.text ++ "': FileSystem error: Path is a directory"
  | notFound location =>
    "Could not get metadata for '" ++ location.text ++
      "': The file or directory could not be found"
  | notListed location =>
    "Could not read directory for '" ++ location.text ++ "': FileSystem error: permission denied"

namespace Volume

/-- What stands at a location. -/
def find? (volume : Volume) (location : Location) : Option FileTree :=
  volume.tree.find? location

/-- Whether a file stands at a location. -/
def isFile (volume : Volume) (location : Location) : Bool :=
  match volume.find? location with
  | some (.file _) => true
  | _ => false

/-- Whether what stands at a location refuses to be listed. -/
def isLocked (volume : Volume) (location : Location) : Bool :=
  volume.locked.contains location.text

/-- The location that a text leads to from another one. -/
def resolve (location : Location) (path : String) : Except VolumeError Location :=
  match location.follow? path with
  | some location => .ok location
  | none => .error (.invalidPath path)

/-- The number of octets at a location; a directory has none. -/
def size (volume : Volume) (location : Location) : Except VolumeError Nat :=
  match volume.find? location with
  | none => .error (.notFound location)
  | some (.directory _) => .ok 0
  | some (.file contents) => .ok contents.size

/-- The text of the file at a location. -/
def readText (volume : Volume) (location : Location) : Except VolumeError String :=
  match volume.find? location with
  | none => .error (.notFound location)
  | some (.directory _) => .error (.notFile location)
  | some (.file (.binary _)) => .error (.notText location)
  | some (.file (.text s)) => .ok s

/-- The volume with a file written at a location; directories on the way are made. -/
def write (volume : Volume) (location : Location) (contents : Contents) : Volume :=
  { volume with tree := volume.tree.write location contents }

/-- The volume with a directory made at a location. -/
def makeDirectory (volume : Volume) (location : Location) : Volume :=
  { volume with tree := volume.tree.makeDirectory location }

/-- The volume without what stands at a location. -/
def remove (volume : Volume) (location : Location) : Volume :=
  { volume with tree := volume.tree.remove location }

theorem readText_write (volume : Volume) (location : Location) (s : String) :
    (volume.write location (.text s)).readText location = .ok s := by
  simp [readText, write, find?, FileTree.find?_write]

end Volume

end YamlIndex
