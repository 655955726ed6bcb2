import YamlIndex.FilePath

/-!
# Which files of a project are indexed

A project is indexed down to a depth, for the files that have one of the given extensions and are
not too large.
-/

namespace YamlIndex.Project

/-- Which files of a project are indexed. -/
structure Options where
  /-- The deepest level that is entered; the children of the root are at level one. -/
  maxDepth : Nat := 10
  /-- The size in bytes of the largest file that is read. -/
  maxSize : Nat := 1048576
  /-- Without the dot in front; the case of ASCII letters does not matter. -/
  extensions : List String := ["yaml", "yml"]
  includeHidden : Bool := false
  heedIgnoreFiles : Bool := true
  deriving DecidableEq, Repr

/-- Whether a file of the given path has one of the extensions. -/
def Options.admits (options : Options) (path : String) : Bool :=
  match FilePath.extension? path with
  | none => false
  | some extension =>
    options.extensions.any fun other =>
      other.toList.map Char.toLower == extension.toList.map Char.toLower

end YamlIndex.Project
