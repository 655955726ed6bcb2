import YamlIndex.Association
import YamlIndex.Project.Options
import YamlIndex.Walk

/-!
# Indexing a project

A scanner finds the files of a project below a location of a volume and indexes them one after the
other, in the order of the walk.  Files are named by paths below a base directory, which need not
have anything to do with the volume.

A file that cannot be read, or is too large, is skipped, and so is a directory that cannot be
entered.
-/

namespace YamlIndex

/-- Why a project or a file of it cannot be read. -/
inductive ScanError where
  | walk (error : Walk.Error)
  | volume (error : VolumeError)
  | tooLarge (path : String) (size limit : Nat)
  deriving DecidableEq, Repr

/-- What is said about an error. -/
def ScanError.message : ScanError → String
  | walk error => error.message
  | volume error => "vfs error: " ++ error.message
  | tooLarge path size limit =>
    path ++ " is " ++ Text.decimal size ++ " bytes, above the " ++ Text.decimal limit ++
      " byte limit"

namespace Project

/-- Finds and reads the files of a project. -/
structure Scanner where
  volume : Volume
  root : Location := []
  /-- The directory that the locations of the volume are reported below. -/
  base : String := "/"
  options : Options := {}
  deriving Repr

/-- What was found in a project. -/
structure Index where
  files : List FileMeta := []
  paths : List PathEntry := []
  values : List ValueEntry := []
  /-- The paths of the directories that could not be entered, then those of the files that could not
  be read. -/
  skipped : List String := []
  deriving Repr

/-- The entries of one kind in an index. -/
def Index.entries (index : Index) : (kind : EntryKind) → List kind.Entry
  | .path => index.paths
  | .value => index.values

/-- How the files of a project are looked for. -/
def Options.walk (options : Options) : Walk.Options where
  includeHidden := options.includeHidden
  heedIgnoreFiles := options.heedIgnoreFiles
  maxDepth := some options.maxDepth

namespace Scanner

/-- The files of the project, and the directories that could not be entered. -/
def list (scanner : Scanner) : Except ScanError Volume.Listing :=
  (scanner.volume.listFiles scanner.options.walk scanner.root fun location =>
    scanner.options.admits location.text).mapError ScanError.walk

/-- The path that a location is reported under. -/
def pathOf (scanner : Scanner) (location : Location) : String :=
  FilePath.join scanner.base (String.ofList (location.text.toList.dropWhile (· == '/')))

/-- What entries from a file say about it. -/
def metaOf (scanner : Scanner) (location : Location) : FileMeta :=
  FileMeta.ofPath scanner.base (scanner.pathOf location)

/-- The lines of a file; one that is too large is not read. -/
def readLines (scanner : Scanner) (location : Location) : Except ScanError (List String) := do
  let size ← (scanner.volume.size location).mapError ScanError.volume
  if size > scanner.options.maxSize then
    .error (.tooLarge (scanner.metaOf location).path size scanner.options.maxSize)
  else
    let text ← (scanner.volume.readText location).mapError ScanError.volume
    return Text.linesOf text

/-- A file of the project with its lines, if it could be read. -/
structure OpenedFile where
  file : FileMeta
  lines : Option (List String)
  deriving Repr

/-- The file at a location, as far as it can be read. -/
def openFile (scanner : Scanner) (location : Location) : OpenedFile where
  file := scanner.metaOf location
  lines := (scanner.readLines location).toOption

/-- The entries of one kind in files, file by file, each as one of its file. -/
def entriesOf (reader : Option Reader) (kind : EntryKind) (files : List OpenedFile) :
    List kind.Entry :=
  files.flatMap fun opened =>
    ((opened.lines.map fun lines => entriesWith (readTree reader lines) lines kind).getD []).map
      (kind.within · opened.file)

/-- The index of the given files, and of those only that could be read. -/
def indexOf (reader : Option Reader) (files : List OpenedFile) : Index where
  files := files.filterMap fun opened => opened.lines.map fun _ => opened.file
  paths := entriesOf reader .path files
  values := entriesOf reader .value files
  skipped := files.filterMap fun opened =>
    match opened.lines with
    | some _ => none
    | none => some opened.file.path

/-- Indexes all files of the project. -/
def scan (scanner : Scanner) (reader : Option Reader) : Except ScanError Index := do
  let listing ← scanner.list
  let index := indexOf reader (listing.files.map scanner.openFile)
  return { index with skipped := listing.unreadable.map scanner.pathOf ++ index.skipped }

end Scanner

end Project

end YamlIndex
