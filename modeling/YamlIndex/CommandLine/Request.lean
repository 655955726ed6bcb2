import YamlIndex.CommandLine.Arguments
import YamlIndex.Entry
import YamlIndex.Session.Picker

/-!
# Requests

A command line that is in order is a request: a task with its own parameters, and what holds for
every task.  What holds for every task may be given at either level; what stands behind the command
wins, and the environment comes last.
-/

namespace YamlIndex.CommandLine

/-- What is to be done. -/
inductive Task where
  /-- Lists the entries of a file. -/
  | list (kind : EntryKind) (file : String)
  /-- Lists the keys of a file that start with a text. -/
  | keys (file start : String) (limit : Option Nat)
  /-- Lists the lines of a file at or below a path. -/
  | find (file query : String) (limit : Option Nat)
  /-- Lists the entries of all files below a directory. -/
  | project (directory : String) (kind : EntryKind) (maxDepth : Option Nat)
  /-- Lists what can be jumped to in a file or below a directory. -/
  | offer (target : String) (kind : EntryKind)
  /-- Jumps to the first entry that a query finds. -/
  | jump (target : String) (kind : EntryKind) (query : String) (action : PickAction)
  /-- Edits the value on a line of a file; it is asked for unless it is given. -/
  | edit (file : String) (line : Nat) (value : Option String)
  deriving DecidableEq, Repr

/-- A task and what holds for every task. -/
structure Request where
  task : Task
  /-- The path of the document of settings. -/
  config : Option String := none
  /-- Whether entries are written as JSON. -/
  json : Bool := false
  /-- Whether documents are parsed in full, whatever the settings say. -/
  structured : Bool := false
  deriving DecidableEq, Repr

/-- The kind of entries that is asked for. -/
def Given.kind (given : Given) : EntryKind :=
  if given.has .values then .value else .path

/-- The task of jumping to a target, or of listing what can be jumped to; only values can be
edited. -/
def Given.jumpTask? (given : Given) (target : String) : Option Task :=
  if given.has .edit && !given.has .values then none
  else
    match given.value? .query with
    | none => some (.offer target given.kind)
    | some query =>
      some (.jump target given.kind query (if given.has .edit then .edit else .jump))

/-- The task that a command stands for; none if something is missing that it needs. -/
def Command.task? (command : Command) (given : Given) : Option Task :=
  match command, given.operands with
  | .paths, [file] => some (.list .path file)
  | .values, [file] => some (.list .value file)
  | .keys, [file] => some (.keys file ((given.value? .start).getD "") (given.number? .limit))
  | .find, [file, query] => some (.find file query (given.number? .limit))
  | .project, directories =>
    some (.project (directories.head?.getD ".") given.kind (given.number? .maxDepth))
  | .jump, [target] => given.jumpTask? target
  | .edit, [file] =>
    (given.number? .line).map fun line => .edit file line (given.value? .value)
  | _, _ => none

/-- What was given at a level that has ended.  The document of settings may also be named by the
environment, but not by an empty text. -/
def Progress.finish (progress : Progress) (fallback : Option String) : Except Refusal Given := do
  let given ← progress.settle
  if !given.has .config && fallback == some "" then .error .emptyValue else return given

/-- What follows from the arguments behind a plea for help. -/
def helpOn : List String → Refusal
  | [] => .help
  | name :: rest =>
    if isCommandName name then
      match rest with
      | [] => .help
      | other :: _ => .unknownCommand other
    else .unknownCommand name

/-- What follows from a command line without a command. -/
def commandless (given : Given) (fallback : Option String) : Refusal :=
  if given.switches.isEmpty && fallback.isNone then .nothing else .noCommand

/-- What was given behind a command, and the task that follows from it. -/
def Command.read (command : Command) (fallback : Option String) (arguments : List String) :
    Except Refusal (Given × Task) := do
  let (progress, _) ← command.level.start arguments
  let given ← progress.finish fallback
  match command.task? given with
  | none => .error (.incomplete command.name)
  | some task => return (given, task)

namespace Request

/-- The request for a task, from what was given in front of the command and behind it. -/
def ofGiven (above below : Given) (fallback : Option String) (task : Task) : Request where
  task
  config := below.value? .config <|> above.value? .config <|> fallback
  json := above.has .json || below.has .json
  structured := above.has .structured || below.has .structured

/-- The request that the arguments of a command line make.  The document of settings may be named by
a variable of the environment. -/
def ofArguments (fallback : Option String) (arguments : List String) :
    Except Refusal Request := do
  let (progress, rest) ← Level.top.start arguments
  match rest with
  | none => .error (commandless (← progress.finish fallback) fallback)
  | some (name, rest) =>
    match Command.ofName? name with
    | none => .error (helpOn rest)
    | some command =>
      let (below, task) ← command.read fallback rest
      let above ← progress.finish fallback
      return ofGiven above below fallback task

end Request

end YamlIndex.CommandLine
