import YamlIndex.CommandLine.Report
import YamlIndex.CommandLine.Request
import YamlIndex.Session.Edit
import YamlIndex.Session.Jump
import YamlIndex.Session.Project
import YamlIndex.Volume.Descent

/-!
# Carrying out a request

A request is carried out on a volume, from a directory of it, in an environment of variables.  What
comes of it is a value too: what is printed, the volume afterwards, and the failure if there is one.

A task that asks for a value is given the answer beforehand, and says what it has asked for.  So the
outcome without an answer shows whether a question is due, and the outcome with one is final.

## Main results

* `run_volume`: only jumps and edits can change the volume.
-/

namespace YamlIndex.CommandLine

/-- Where a request is carried out. -/
structure Place where
  volume : Volume
  /-- The directory that relative paths start from. -/
  directory : Location := []
  /-- The variables of the environment. -/
  lookup : String → Option String := fun _ => none

/-- Why a request fails. -/
inductive Failure where
  | settings (error : SettingsError)
  /-- A path that leads nowhere. -/
  | unresolved (path : String)
  | editor (error : EditorError)
  | scan (error : ScanError)
  | edit (error : EditError)
  | jump (error : JumpError)
  | notFound (query : String)

/-- What is said about a failure. -/
def Failure.message : Failure → String
  | settings error => error.message
  | unresolved path => "failed to resolve " ++ path
  | editor error => error.message
  | scan error => error.message
  | edit error => error.message
  | jump error => error.message
  | notFound query => "not found: " ++ query

/-- The path of what a task is about. -/
def Task.target : Task → String
  | list _ file => file
  | keys file _ _ => file
  | find file _ _ => file
  | project directory _ _ => directory
  | offer target _ => target
  | jump target _ _ _ => target
  | edit file _ _ => file

/-- How many levels of directories a task can look into. -/
def Task.depth (settings : Settings) : Task → Nat
  | project _ _ maxDepth => 1 + maxDepth.getD settings.project.maxDepth
  | offer _ _ => 1 + settings.project.maxDepth
  | jump _ _ _ _ => 1 + settings.project.maxDepth
  | _ => 0

/-- What comes of a request. -/
structure Outcome where
  output : String := ""
  volume : Volume
  /-- The present value, if a new one was asked for. -/
  asked : Option String := none
  failure : Option Failure := none

/-- The answer to a question that a line of input gives; a blank one gives none. -/
def answerOf (input : String) : Option String :=
  let line := Text.trim (input.toList.takeWhile (· != '\n'))
  if line.isEmpty then none else some (String.ofList line)

namespace Place

/-- The location that a path leads to. -/
def resolve (place : Place) (path : String) : Except Failure Location :=
  match place.volume.descend? place.directory path with
  | some location => .ok location
  | none => .error (.unresolved path)

/-- The settings of the document at a path. -/
def readSettings (place : Place) (path : String) : Except SettingsError Settings :=
  match place.volume.descend? place.directory path with
  | none => .error (.unreadable path)
  | some location =>
    match place.volume.readText location with
    | .error _ => .error (.unreadable path)
    | .ok text => Settings.ofText text

/-- The settings that a request is carried out with. -/
def settings (place : Place) (request : Request) : Except Failure Settings := do
  let written ← match request.config with
    | none => pure {}
    | some path => (place.readSettings path).mapError Failure.settings
  match written.applyVariables place.lookup with
  | (_, some error) => .error (.settings error)
  | (settings, none) =>
    return { settings with structured := settings.structured || request.structured }

/-- A session over the volume. -/
def session (place : Place) (settings : Settings) (current : Option String) : Session :=
  .start { volume := place.volume, current } settings

/-- A session with a file in focus, and this file as a source. -/
def openFile (place : Place) (settings : Settings) (path : String) :
    Except Failure (Session × Source) :=
  (place.resolve path).map fun location =>
    (place.session settings (some location.absolute), .file location.absolute)

/-- The scanner of the project below a directory. -/
def scanner (place : Place) (options : Project.Options) (location : Location) :
    Except Failure Project.Scanner :=
  match place.volume.below? location with
  | none => .error (.scan (.walk (.noRoot [])))
  | some volume => .ok { volume, base := location.absolute, options }

/-- Answers a question about a file. -/
def query {α : Type} (place : Place) (settings : Settings) (path : String)
    (ask : Session → Source → Except EditorError (α × Session)) : Except Failure α := do
  let (session, source) ← place.openFile settings path
  let (answer, _) ← (ask session source).mapError Failure.editor
  return answer

/-- The entries of one kind of the project below a directory. -/
def projectEntries (place : Place) (settings : Settings) (options : Project.Options)
    (location : Location) (kind : EntryKind) : Except Failure (List kind.Entry × Session) := do
  let scanner ← place.scanner options location
  ((place.session settings none).projectEntries kind scanner).mapError Failure.scan

/-- Picks an entry of the file or of the project that a path leads to. -/
def pick (place : Place) (settings : Settings) (target : String) (kind : EntryKind)
    (picker : Picker) : Except Failure (Attempt × Session) := do
  let location ← place.resolve target
  if place.volume.isDirectory location then
    let (entries, session) ← place.projectEntries settings settings.project location kind
    return session.pick kind .focus entries picker
  else
    let (session, source) ← place.openFile settings target
    return session.jumpTo kind source picker

/-! ## Tasks that only read -/

/-- The report of entries that were found; it is a failure to find none. -/
def reportFound (json : Bool) (query : String) (found : List PathEntry) : Except Failure String :=
  if found.isEmpty then .error (.notFound query) else .ok (reportEntries json .path found)

/-- The report of the entries of a project. -/
def reportProject (place : Place) (settings : Settings) (json : Bool) (directory : String)
    (kind : EntryKind) (maxDepth : Option Nat) : Except Failure String := do
  let location ← place.resolve directory
  let options :=
    { settings.project with maxDepth := maxDepth.getD settings.project.maxDepth }
  let (entries, _) ← place.projectEntries settings options location kind
  return reportEntries json kind entries

/-- The list of what can be jumped to. -/
def reportOffer (place : Place) (settings : Settings) (target : String) (kind : EntryKind) :
    Except Failure String := do
  let (attempt, _) ← place.pick settings target kind Picker.none
  match attempt.result with
  | .error error => .error (.jump error)
  | .ok _ => return (attempt.offer.map Offer.listing).getD ""

/-! ## Tasks that may write -/

/-- What comes of a task that has failed. -/
def failed (place : Place) (failure : Failure) : Outcome :=
  { volume := place.volume, failure := some failure }

/-- What comes of a task that only reads. -/
def printed (place : Place) : Except Failure String → Outcome
  | .ok output => { volume := place.volume, output }
  | .error failure => place.failed failure

/-- Goes on from a jump to edit the value that was jumped to. -/
def editAfterJump (session : Session) (jump : Jump) (answer : Option String) (output : String) :
    Outcome :=
  let (report, session) := session.edit jump.source jump.line fun _ => answer
  { output
    volume := session.editor.volume
    asked := report.offered
    failure := match report.result with
      | .ok _ => none
      | .error error => some (.edit error) }

/-- Jumps to the first entry that a query finds, prints where it is, and edits it if that is what is
wanted. -/
def jump (place : Place) (settings : Settings) (answer : Option String) (target : String)
    (kind : EntryKind) (query : String) (action : PickAction) : Outcome :=
  match place.pick settings target kind (Picker.byQuery query action) with
  | .error failure => place.failed failure
  | .ok (attempt, session) =>
    match attempt.result with
    | .error error => place.failed (.jump error)
    | .ok none => place.failed (.notFound query)
    | .ok (some jump) =>
      let output := jump.source.text ++ ":" ++ Text.decimal jump.line ++ "\n"
      match jump.action with
      | .jump => { volume := place.volume, output }
      | .edit => editAfterJump session jump answer output

/-- Edits the value on a line of a file. -/
def edit (place : Place) (settings : Settings) (json : Bool) (answer : Option String)
    (file : String) (line : Nat) (value : Option String) : Outcome :=
  match place.openFile settings file with
  | .error failure => place.failed failure
  | .ok (session, source) =>
    let (report, session) := session.edit source line fun _ => value <|> answer
    match report.result with
    | .error error => place.failed (.edit error)
    | .ok changed =>
      { output := reportEdit json line changed
        volume := session.editor.volume
        asked := if value.isSome then none else report.offered }

/-- Carries out a task. -/
def perform (place : Place) (settings : Settings) (json : Bool) (answer : Option String) :
    Task → Outcome
  | .list kind file =>
    place.printed <| (place.query settings file fun session source =>
      session.entries kind source).map (reportEntries json kind)
  | .keys file start limit =>
    place.printed <| (place.query settings file fun session source =>
      session.keysStartingWith source start limit).map (reportEntries json .path)
  | .find file query limit =>
    place.printed <| (place.query settings file fun session source =>
      session.find source query limit) >>= reportFound json query
  | .project directory kind maxDepth =>
    place.printed (place.reportProject settings json directory kind maxDepth)
  | .offer target kind => place.printed (place.reportOffer settings target kind)
  | .jump target kind query action => place.jump settings answer target kind query action
  | .edit file line value => place.edit settings json answer file line value

/-- Carries out a request.  The answer is for the question that the task may ask. -/
def run (place : Place) (request : Request) (answer : Option String) : Outcome :=
  match place.settings request with
  | .error failure => place.failed failure
  | .ok settings => place.perform settings request.json answer request.task

theorem printed_volume (place : Place) (result : Except Failure String) :
    (place.printed result).volume = place.volume := by
  cases result <;> rfl

theorem run_volume (place : Place) (request : Request) (answer : Option String)
    (hJump : ∀ target kind query action, request.task ≠ .jump target kind query action)
    (hEdit : ∀ file line value, request.task ≠ .edit file line value) :
    (place.run request answer).volume = place.volume := by
  unfold run
  split
  · rfl
  · unfold perform
    split
    case h_6 target kind query action hTask =>
      exact absurd hTask (hJump target kind query action)
    case h_7 file line value hTask => exact absurd hTask (hEdit file line value)
    all_goals exact printed_volume _ _

end Place

end YamlIndex.CommandLine
