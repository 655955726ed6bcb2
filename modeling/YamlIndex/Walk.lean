import YamlIndex.Ignore.Rules
import YamlIndex.Volume

/-!
# Walking a volume

A walk goes through all that is below a directory: a directory comes before what is in it, and the
entries of a directory come in the order of their names.  Hidden names, the directories of tools,
and what files of rules say to ignore are left out together with what is below them.  A directory
that cannot be entered is reported in its own place, and the walk goes on behind it.

The walk keeps a stack of the directories that it is in, each with the entries that it still has to
look at.  A turn looks at one entry of the directory on top, or leaves that directory.  What is
above a place shows only in the rules that are in force there.

What a file of rules says of the paths below it is a parameter of the walk, which asks for nothing
more; it is the reading of `Ignore.Rules` unless told otherwise.

## Main results

* `weight_turn_lt`: every turn leaves less to do, so the walk ends.
-/

namespace YamlIndex

/-- The file of rules that a directory may have. -/
def ignoreFileName : String := ".gitignore"

/-- Names that belong to tools. -/
def standardNames : List String :=
  [".git", ".hg", ".svn", "CVS", "node_modules", "target"]

namespace Walk

/-- What the rules of a directory say of a path below it, given by its names, and of whether it is
a directory. -/
abbrev Rules := List String → Bool → Option Verdict

/-- The rules of a directory that has none. -/
def Rules.none : Rules := fun _ _ => .none

/-- What a walk leaves out. -/
structure Options where
  includeHidden : Bool := false
  /-- Whether names that belong to tools are left out. -/
  skipStandard : Bool := true
  heedIgnoreFiles : Bool := true
  /-- The deepest level that is entered from above; the entries of the root are at level one. -/
  maxDepth : Option Nat := none
  /-- The rules that the text of a file of rules holds. -/
  readRules : String → Rules := fun text => (IgnoreRules.ofText text).verdict

/-- What a walk comes by. -/
inductive Visit where
  | entry (location : Location) (depth : Nat) (isDirectory : Bool)
  /-- A directory that cannot be entered. -/
  | unreadable (location : Location) (error : VolumeError)
  deriving DecidableEq, Repr

/-- Why a walk cannot start, or a directory cannot be entered. -/
inductive Error where
  | noRoot (location : Location)
  | volume (error : VolumeError)
  | unreadable (location : Location) (error : VolumeError)
  deriving DecidableEq, Repr

/-- What is said about an error. -/
def Error.message : Error → String
  | noRoot location => "vfs error: root does not exist: " ++ location.text
  | volume error => "vfs error: " ++ error.message
  | unreadable location error => "cannot read " ++ location.text ++ ": vfs error: " ++ error.message

/-! ## Rules in force -/

/-- The rules of a directory and how many names lead to it. -/
structure Scope where
  depth : Nat
  rules : Rules

/-- Whether the rules of a directory say to ignore what is at a location. -/
def Scope.ignores (scope : Scope) (location : Location) (isDirectory : Bool) : Bool :=
  scope.rules (location.drop scope.depth) isDirectory == some .ignored

/-- The rules of a directory with the given entries; an error if they are no text. -/
def rulesOf (options : Options) (location : Location) (entries : List (String × FileTree)) :
    Except VolumeError Rules :=
  if options.heedIgnoreFiles then
    match entries.lookup ignoreFileName with
    | some (.file (.text s)) => .ok (options.readRules s)
    | some (.file (.binary _)) => .error (.notText (location ++ [ignoreFileName]))
    | _ => .ok Rules.none
  else .ok Rules.none

/-- The rules of a directory that is entered; an error if it cannot be. -/
def enter (options : Options) (isLocked : Location → Bool) (location : Location)
    (entries : List (String × FileTree)) : Except VolumeError Scope :=
  if isLocked location then .error (.notListed location)
  else (rulesOf options location entries).map fun rules => ⟨location.length, rules⟩

/-! ## The walk -/

/-- Whether a name is left out wherever it stands. -/
def skipsName (options : Options) (name : String) : Bool :=
  (!options.includeHidden && name.toList.head? == some '.') ||
    (options.skipStandard && standardNames.contains name)

/-- Whether an entry is admitted by its name and by the rules in force. -/
def admits (options : Options) (scopes : List Scope) (location : Location) (isDirectory : Bool) :
    Bool :=
  !skipsName options (location.getLastD "") &&
    !scopes.any fun scope => scope.ignores location isDirectory

/-- Whether the directories at a depth are entered. -/
def descends (options : Options) (depth : Nat) : Bool :=
  match options.maxDepth with
  | none => true
  | some limit => depth < limit

/-- The entries of a directory in the order of their names. -/
def inOrder (entries : List (String × FileTree)) : List (String × FileTree) :=
  entries.mergeSort fun a b => a.1 ≤ b.1

/-- A directory that the walk is in. -/
structure Frame where
  location : Location
  /-- The depth of its entries. -/
  depth : Nat
  scope : Scope
  /-- The entries still to be looked at. -/
  pending : List (String × FileTree)

/-- The frame of a directory that is entered; an error if it cannot be. -/
def Frame.enter (options : Options) (isLocked : Location → Bool) (location : Location)
    (depth : Nat) (entries : List (String × FileTree)) : Except VolumeError Frame :=
  (Walk.enter options isLocked location entries).map fun scope =>
    { location, depth, scope, pending := inOrder entries }

/-- What is visited at a place that is admitted, and the frame of what is below it if that is
entered. -/
def lookAt (options : Options) (isLocked : Location → Bool) (location : Location) (depth : Nat) :
    FileTree → Visit × Option Frame
  | .file _ => (.entry location depth false, none)
  | .directory entries =>
    if descends options depth then
      match Frame.enter options isLocked location (depth + 1) entries with
      | .error error => (.unreadable location error, none)
      | .ok inner => (.entry location depth true, some inner)
    else (.entry location depth true, none)

/-- A turn of the walk with a frame on top of others: what is visited, if anything, and the stack
afterwards. -/
def turn (options : Options) (isLocked : Location → Bool) (frame : Frame) (below : List Frame) :
    Option Visit × List Frame :=
  match frame.pending with
  | [] => (none, below)
  | (name, child) :: rest =>
    let location := frame.location ++ [name]
    let stack := { frame with pending := rest } :: below
    if admits options (stack.map Frame.scope) location child.isDirectory then
      let (visit, inner) := lookAt options isLocked location frame.depth child
      (some visit, inner.toList ++ stack)
    else (none, stack)

mutual

/-- The number of turns that a tree takes at most. -/
def weight : FileTree → Nat
  | .file _ => 1
  | .directory entries => 2 + weightOfEntries entries

/-- The number of turns that the entries of a directory take at most. -/
def weightOfEntries : List (String × FileTree) → Nat
  | [] => 0
  | (_, child) :: rest => weight child + weightOfEntries rest

end

/-- The number of turns that a stack takes at most. -/
def weightOfStack : List Frame → Nat
  | [] => 0
  | frame :: below => 1 + weightOfEntries frame.pending + weightOfStack below

theorem weightOfEntries_perm {entries others : List (String × FileTree)}
    (h : entries.Perm others) : weightOfEntries entries = weightOfEntries others := by
  induction h with
  | nil => rfl
  | cons entry _ ih => rw [weightOfEntries, weightOfEntries, ih]
  | swap entry other rest =>
    simp only [weightOfEntries]
    omega
  | trans _ _ ihFirst ihSecond => exact ihFirst.trans ihSecond

theorem weightOfEntries_inOrder (entries : List (String × FileTree)) :
    weightOfEntries (inOrder entries) = weightOfEntries entries :=
  weightOfEntries_perm (List.mergeSort_perm entries _)

theorem weightOfStack_append (above below : List Frame) :
    weightOfStack (above ++ below) = weightOfStack above + weightOfStack below := by
  induction above with
  | nil => exact (Nat.zero_add _).symm
  | cons frame above ih =>
    rw [List.cons_append, weightOfStack, weightOfStack, ih]
    omega

theorem pending_of_enter {options : Options} {isLocked : Location → Bool} {location : Location}
    {depth : Nat} {entries : List (String × FileTree)} {frame : Frame}
    (h : Frame.enter options isLocked location depth entries = .ok frame) :
    frame.pending = inOrder entries := by
  unfold Frame.enter at h
  cases hScope : Walk.enter options isLocked location entries with
  | error error => simp [hScope, Except.map] at h
  | ok scope =>
    simp only [hScope, Except.map, Except.ok.injEq] at h
    rw [← h]

theorem weight_lookAt_lt (options : Options) (isLocked : Location → Bool) (location : Location)
    (depth : Nat) (tree : FileTree) :
    weightOfStack (lookAt options isLocked location depth tree).2.toList < weight tree := by
  cases tree with
  | file contents => simp [lookAt, weightOfStack, weight]
  | directory entries =>
    rw [weight, lookAt]
    split
    · split
      · exact Nat.add_pos_left (by decide) _
      · rename_i inner hInner
        simp [weightOfStack, pending_of_enter hInner, weightOfEntries_inOrder]
    · exact Nat.add_pos_left (by decide) _

theorem weight_turn_lt (options : Options) (isLocked : Location → Bool) (frame : Frame)
    (below : List Frame) :
    weightOfStack (turn options isLocked frame below).2 < weightOfStack (frame :: below) := by
  cases hPending : frame.pending with
  | nil => simp [turn, weightOfStack, hPending, weightOfEntries]
  | cons entry rest =>
    obtain ⟨name, child⟩ := entry
    have hLook := weight_lookAt_lt options isLocked (frame.location ++ [name]) frame.depth child
    have hStack : weightOfStack ({ frame with pending := rest } :: below) + weight child =
        weightOfStack (frame :: below) := by
      simp only [weightOfStack, hPending, weightOfEntries]
      omega
    simp only [turn, hPending]
    split
    · rw [weightOfStack_append]
      omega
    · dsimp only
      omega

/-- All that is visited from a stack on. -/
def run (options : Options) (isLocked : Location → Bool) : List Frame → List Visit
  | [] => []
  | frame :: below =>
    match _ : turn options isLocked frame below with
    | (visit, stack) => visit.toList ++ run options isLocked stack
termination_by stack => weightOfStack stack
decreasing_by
  rename_i hTurn
  have hLess := weight_turn_lt options isLocked frame below
  rw [hTurn] at hLess
  exact hLess

end Walk

namespace Volume

/-- All that is below a location.  A file has nothing below it. -/
def walk (volume : Volume) (options : Walk.Options) (root : Location) :
    Except Walk.Error (List Walk.Visit) :=
  match volume.find? root with
  | none => .error (.noRoot root)
  | some tree =>
    match Walk.Frame.enter options volume.isLocked root 1 tree.entries with
    | .error error => .error (.volume error)
    | .ok frame => .ok (Walk.run options volume.isLocked [frame])

/-- The files of a walk that are wanted, and the directories that could not be entered. -/
structure Listing where
  files : List Location := []
  unreadable : List Location := []
  deriving DecidableEq, Repr

/-- The files below a location that are wanted, in the order of the walk. -/
def listFiles (volume : Volume) (options : Walk.Options) (root : Location)
    (wanted : Location → Bool) : Except Walk.Error Listing :=
  (volume.walk options root).map fun visits =>
    { files := visits.filterMap fun visit =>
        match visit with
        | .entry location _ false => if wanted location then some location else none
        | _ => none
      unreadable := visits.filterMap fun visit =>
        match visit with
        | .unreadable location _ => some location
        | _ => none }

end Volume

end YamlIndex
