import YamlIndex.Project.Options
import YamlIndex.Text.Lowercase
import YamlIndex.Text.Quoted
import YamlIndex.Yaml.Scalar
import YamlIndex.Yaml.Tree

/-!
# Settings

Settings come from a document, in which every field may be left out, and from two variables of the
environment, which win over the document.

The document is read for its fields, not for its values: a field says by its kind how its scalar is
read.  A text takes any scalar as it stands, a switch and a number take plain scalars, and blocks
of text with the tag that says so.  A group of fields that is left empty has its defaults.  A field
that is not known, or is given twice, makes the document invalid.
-/

namespace YamlIndex

/-- The settings of a session. -/
structure Settings where
  /-- Whether results are remembered. -/
  remember : Bool := true
  /-- How long results are remembered, in seconds. -/
  lifetime : Nat := 300
  /-- The number of jumps that are remembered. -/
  maxJumps : Nat := 100
  project : Project.Options := {}
  /-- Whether a document is parsed in full before it is scanned by indentation. -/
  structured : Bool := false
  deriving DecidableEq, Repr

/-- Why settings cannot be had. -/
inductive SettingsError where
  | unreadable (path : String)
  | malformed
  | badVariable (name value : String)
  deriving DecidableEq, Repr

/-- What is said about an error; a malformed document is described by no more than that. -/
def SettingsError.message : SettingsError → String
  | unreadable path => "failed to read config " ++ path
  | malformed => "invalid config"
  | badVariable name value => "invalid value " ++ Text.quoted value ++ " for " ++ name

namespace Settings

open Yaml (Tree Octets)

/-! ## Nodes of a document -/

/-- The nodes that aliases stand for, by the numbers of their anchors. -/
abbrev Anchors := List (Nat × Tree)

/-- The node that is meant: that of the anchor for an alias, else the node itself. -/
def meant (anchors : Anchors) : Tree → Option Tree
  | .alias anchor => anchors.lookup anchor
  | tree => some tree

/-- Whether nothing is written for a node. -/
def isLeftEmpty : Tree → Bool
  | .scalar _ .plain [] => true
  | _ => false

/-- The text of a scalar as it stands. -/
def text? (anchors : Anchors) (tree : Tree) : Option String :=
  match meant anchors tree with
  | some (.scalar _ _ s) => some (String.ofList s)
  | _ => none

/-- The characters of a scalar that counts by its spelling: a plain one, or a block of text with the
given core tag. -/
def spelling? (anchors : Anchors) (tag : String) (tree : Tree) : Option (List Char) :=
  match meant anchors tree with
  | some (.scalar _ .plain s) => some s
  | some (.scalar properties .literal s) =>
    if properties.tag = some (Octets.ofAscii ("tag:yaml.org,2002:" ++ tag).toList) then some s
    else none
  | _ => none

/-- A truth value. -/
def switch? (anchors : Anchors) (tree : Tree) : Option Bool :=
  (spelling? anchors "bool" tree).bind Yaml.bool?

/-- A word. -/
def word? (anchors : Anchors) (tree : Tree) : Option Nat := do
  let n ← Yaml.natural? (← spelling? anchors "int" tree)
  if n ≤ Text.maxWord then some n else none

/-- A sequence of texts. -/
def texts? (anchors : Anchors) (tree : Tree) : Option (List String) := do
  let tree ← meant anchors tree
  match tree with
  | .sequence _ items => items.mapM (text? anchors)
  | tree => if isLeftEmpty tree then some [] else none

/-! ## Fields -/

/-- Reads a node of a document into the settings. -/
abbrev Field := Tree → Settings → Option Settings

/-- The field that is read and written in the given ways. -/
def field {α : Type} (read : Tree → Option α) (write : Settings → α → Settings) : Field :=
  fun tree settings => (read tree).map (write settings)

/-- Reads the members of a group of fields one after the other; no name may occur twice. -/
def readMembers (anchors : Anchors) (fields : String → Option Field) :
    List String → List (Tree × Tree) → Settings → Option Settings
  | _, [], settings => some settings
  | seen, (key, value) :: rest, settings => do
    let name ← text? anchors key
    let read ← fields name
    if seen.contains name then none
    else readMembers anchors fields (name :: seen) rest (← read value settings)

/-- A group of fields. -/
def group (anchors : Anchors) (fields : String → Option Field) : Field := fun tree settings => do
  let tree ← meant anchors tree
  match tree with
  | .mapping _ members => readMembers anchors fields [] members settings
  | tree => if isLeftEmpty tree then some settings else none

/-- The fields about what is remembered of sources. -/
def cacheFields (anchors : Anchors) : String → Option Field
  | "enabled" => some (field (switch? anchors) fun s b => { s with remember := b })
  | "ttl_secs" => some (field (word? anchors) fun s n => { s with lifetime := n })
  | _ => none

/-- The fields about what is remembered of jumps. -/
def historyFields (anchors : Anchors) : String → Option Field
  | "max_entries" => some (field (word? anchors) fun s n => { s with maxJumps := n })
  | _ => none

/-- The field about the files of a project that is read and written in the given ways. -/
def projectField {α : Type} (read : Tree → Option α)
    (write : Project.Options → α → Project.Options) : Field :=
  field read fun settings a => { settings with project := write settings.project a }

/-- The fields about the files of a project. -/
def projectFields (anchors : Anchors) : String → Option Field
  | "max_depth" => some (projectField (word? anchors) fun o n => { o with maxDepth := n })
  | "max_file_size" => some (projectField (word? anchors) fun o n => { o with maxSize := n })
  | "extensions" => some (projectField (texts? anchors) fun o xs => { o with extensions := xs })
  | "include_hidden" =>
    some (projectField (switch? anchors) fun o b => { o with includeHidden := b })
  | "respect_gitignore" =>
    some (projectField (switch? anchors) fun o b => { o with heedIgnoreFiles := b })
  | _ => none

/-- The fields of a document of settings. -/
def fields (anchors : Anchors) : String → Option Field
  | "cache" => some (group anchors (cacheFields anchors))
  | "history" => some (group anchors (historyFields anchors))
  | "project" => some (group anchors (projectFields anchors))
  | "structured_parser" => some (field (switch? anchors) fun s b => { s with structured := b })
  | _ => none

/-- The settings of a document; a blank one has all defaults. -/
def ofText (document : String) : Except SettingsError Settings :=
  if (Text.trim document.toList).isEmpty then .ok {}
  else
    match Tree.ofText? document.toList with
    | none => .error .malformed
    | some none => .ok {}
    | some (some root) =>
      match group root.targets (fields root.targets) root {} with
      | some settings => .ok settings
      | none => .error .malformed

/-! ## Variables -/

/-- The truth value that a variable stands for. -/
def variableSwitch? (value : String) : Option Bool :=
  let word := Text.asciiLowered (Text.trimmed value)
  if ["1", "true", "yes", "on"].contains word then some true
  else if ["0", "false", "no", "off"].contains word then some false
  else none

/-- The settings with a variable applied by the given rule, if it is set. -/
def applyVariable {α : Type} (name : String) (read : String → Option α)
    (write : Settings → α → Settings) (value? : Option String) (settings : Settings) :
    Except SettingsError Settings :=
  match value? with
  | none => .ok settings
  | some value =>
    match read value with
    | some a => .ok (write settings a)
    | none => .error (.badVariable name value)

/-- The settings with the lifetime that the environment asks for. -/
def applyLifetime (lookup : String → Option String) : Settings → Except SettingsError Settings :=
  applyVariable "YAMLNAV_CACHE_TTL" (fun value => Text.signedWord? (Text.trim value.toList))
    (fun settings n => { settings with lifetime := n }) (lookup "YAMLNAV_CACHE_TTL")

/-- The settings with the way of parsing that the environment asks for. -/
def applyStructured (lookup : String → Option String) : Settings → Except SettingsError Settings :=
  applyVariable "YAMLNAV_STRUCTURED" variableSwitch?
    (fun settings b => { settings with structured := b }) (lookup "YAMLNAV_STRUCTURED")

/-- The settings after the variables of an environment, as far as they could be applied, and the
error that stopped it, if any. -/
def applyVariables (lookup : String → Option String) (settings : Settings) :
    Settings × Option SettingsError :=
  match applyLifetime lookup settings with
  | .error error => (settings, some error)
  | .ok settings =>
    match applyStructured lookup settings with
    | .error error => (settings, some error)
    | .ok settings => (settings, none)

end Settings

end YamlIndex
