import YamlIndex.Ancestors
import YamlIndex.Entry
import YamlIndex.Line
import YamlIndex.Text.Lowercase

/-!
# Indexing a document by its indentation

The scan goes through the lines once and never fails: a line that is neither a key nor an item is
passed over.  Along the way it keeps the open ancestors and, for each path that has items, how many
of them have been met.  A key that is opened again forgets the count of its path, so the items of a
repeated parent are numbered from one.

The scan is a fold, and its state after any number of lines is a value, so what holds in every state
of a scan is proved by induction over the lines.

## Main results

* `Tally.count_reset`, `Tally.count_bump`: what the two operations on counts do.
-/

namespace YamlIndex

/-! ## Counting items -/

/-- How many items each path has had since its key was last opened. -/
structure Tally where
  counts : List (Path × Nat) := []
  deriving Repr

namespace Tally

/-- The number of items counted for a path. -/
def count (tally : Tally) (path : Path) : Nat :=
  (tally.counts.lookup path).getD 0

/-- Forgets the items of a path. -/
def reset (tally : Tally) (path : Path) : Tally :=
  ⟨tally.counts.filter fun entry => entry.1 != path⟩

/-- Counts one more item for a path. -/
def bump (tally : Tally) (path : Path) : Tally :=
  ⟨(path, tally.count path + 1) :: (tally.reset path).counts⟩

theorem count_bump (tally : Tally) (path other : Path) :
    (tally.bump path).count other =
      if other = path then tally.count path + 1 else (tally.reset path).count other := by
  by_cases h : other = path
  · simp [count, bump, h]
  · have : (other == path) = false := by simp [h]
    simp [count, bump, h, List.lookup_cons, this]

theorem lookup_filter_ne (counts : List (Path × Nat)) (path other : Path) :
    (counts.filter fun entry => entry.1 != path).lookup other =
      if other = path then none else counts.lookup other := by
  induction counts with
  | nil => simp
  | cons entry counts ih =>
    obtain ⟨p, n⟩ := entry
    by_cases hp : p = path
    · subst hp
      rw [List.filter_cons_of_neg (by simp), ih]
      by_cases ho : other = p
      · simp [ho]
      · simp [ho, List.lookup_cons, beq_eq_false_iff_ne.2 ho]
    · rw [List.filter_cons_of_pos (by simpa using hp), List.lookup_cons, List.lookup_cons, ih]
      by_cases ho : other = p
      · subst ho
        simp [hp]
      · simp [beq_eq_false_iff_ne.2 ho]

theorem count_reset (tally : Tally) (path other : Path) :
    (tally.reset path).count other = if other = path then 0 else tally.count other := by
  by_cases h : other = path <;> simp [count, reset, lookup_filter_ne, h]

end Tally

/-! ## Steps of the scan -/

/-- A line that carries structure, with the path it leads to. -/
structure Step where
  /-- Counted from one. -/
  number : Nat
  raw : String
  /-- The key on the line. -/
  key : Option String
  /-- The position of an item line among the items of its parent; none for a mapping line. -/
  position : Option Nat
  path : Path
  deriving Repr

/-- The index entry for a step. -/
def Step.entry (step : Step) : PathEntry where
  line := step.number
  key := step.key.getD ("[" ++ Text.decimal (step.position.getD 0) ++ "]")
  text := Text.trimmed step.raw
  path := step.path
  isItem := step.position.isSome
  position := step.position

namespace Scan

/-- The state of a scan between two lines. -/
structure State where
  ancestors : Ancestors := {}
  tally : Tally := {}
  /-- The steps so far, the last one first. -/
  steps : List Step := []
  deriving Repr

namespace State

/-- The state after a mapping line. -/
def readMapping (state : State) (number : Nat) (raw : String) (line : MappingLine) : State :=
  let ancestors := (state.ancestors.close line.indent).push (.key line.key) line.indent
  { ancestors
    tally := state.tally.reset ancestors.path
    steps := ⟨number, raw, some line.key, none, ancestors.path⟩ :: state.steps }

/-- The state after an item line. -/
def readItem (state : State) (number : Nat) (raw : String) (line : ItemLine) : State :=
  let parents := state.ancestors.closeItem line.indent
  let tally := state.tally.bump parents.path
  let position := tally.count parents.path
  match line.key with
  | some key =>
    let ancestors := (parents.push (.index position) line.indent).push (.key key) line.keyIndent
    { ancestors, tally
      steps := ⟨number, raw, some key, some position, ancestors.path⟩ :: state.steps }
  | none =>
    { ancestors := parents, tally
      steps :=
        ⟨number, raw, none, some position, parents.path.child (.index position)⟩ :: state.steps }

/-- The state after one more line. -/
def read (state : State) (line : String × Nat) : State :=
  match Line.classify line.1 with
  | .blank => state
  | .unparsed => state
  | .mapping mapping => state.readMapping line.2 line.1 mapping
  | .item item => state.readItem line.2 line.1 item

end State

/-- The state after the given lines. -/
def run (lines : List String) : State :=
  (lines.zipIdx 1).foldl State.read {}

/-- The steps of a scan, in line order. -/
def steps (lines : List String) : List Step :=
  (run lines).steps.reverse

/-! ## Values -/

/-- The state of a pass over the mapping lines for their values. -/
structure ValueState where
  ancestors : Ancestors := {}
  /-- The entries so far, the last one first. -/
  found : List ValueEntry := []
  deriving Repr

/-- The state after one more line.  A key with a value is a leaf and closes again at once; the first
leaf of a path is the one that counts. -/
def ValueState.read (state : ValueState) (line : String × Nat) : ValueState :=
  match Line.classify line.1 with
  | .mapping mapping =>
    let parents := state.ancestors.close mapping.indent
    let ancestors := parents.push (.key mapping.key) mapping.indent
    match mapping.value with
    | none => { state with ancestors }
    | some value =>
      { ancestors := parents
        found :=
          if state.found.any fun entry => entry.path = ancestors.path then state.found
          else
            { line := line.2, key := mapping.key, path := ancestors.path, value
              text := Text.trimmed line.1 } :: state.found }
  | _ => state

/-- The state of a pass for the values behind the given lines. -/
def runValues (lines : List String) : ValueState :=
  (lines.zipIdx 1).foldl ValueState.read {}

end Scan

/-! ## Queries -/

/-- An entry for every mapping line and every item line, in line order. -/
def scanPaths (lines : List String) : List PathEntry :=
  (Scan.steps lines).map Step.entry

/-- An entry for every key that has its value on its line, once for each path, in line order.  Only
mapping lines take part. -/
def scanValues (lines : List String) : List ValueEntry :=
  (Scan.runValues lines).found.reverse

/-- At most as many elements as the limit says; all of them when there is none. -/
def limited {α : Type} (limit : Option Nat) (xs : List α) : List α :=
  match limit with
  | some n => xs.take n
  | none => xs

/-- The entry for a mapping line whose key starts with the text, case aside; its path is the key
alone. -/
def keyMatch? (lowerText : List Char) (line : String × Nat) : Option PathEntry :=
  match Line.classify line.1 with
  | .mapping mapping =>
    if lowerText.isPrefixOf (Text.lower mapping.key.toList) then
      some
        { line := line.2, key := mapping.key, text := Text.trimmed line.1
          path := [.key mapping.key], isItem := false, position := none }
    else none
  | _ => none

/-- The mapping lines whose keys start with the given text, wherever they are nested. -/
def keysStartingWith (text : String) (lines : List String) (limit : Option Nat) :
    List PathEntry :=
  limited limit ((lines.zipIdx 1).filterMap (keyMatch? (Text.lower text.toList)))

/-- The lines at or below the queried path.  Each is reported under the queried path itself; the
empty path finds nothing. -/
def findPath (query : Path) (lines : List String) (limit : Option Nat) : List PathEntry :=
  if query.isEmpty then []
  else
    (limited limit ((Scan.steps lines).filter fun step => step.path.startsWith query)).map
      fun step => { step.entry with path := step.path.take query.length }

end YamlIndex
