import YamlIndex.LogFormat
import YamlIndex.Text.Number

/-!
# The grammar of the command line

A command line has two levels: what stands in front of the name of a command, and what stands
behind it.  Each level knows a number of switches and expects a number of operands.  A switch has a
name, some have a letter too, and some take a value; the form of a value says which texts may stand
there.

## Main results

* `Command.ofName?_name`, `Switch.name_injective`: commands and switches can be told by their names.
-/

namespace YamlIndex.CommandLine

/-! ## Values -/

/-- What a value has to look like. -/
inductive Form where
  | text
  /-- Any text but the empty one. -/
  | path
  | number
  | logLevel
  | logFormat
  | color
  deriving DecidableEq, Repr

/-- Whether a text names a level of the log, by its name or by its rank. -/
def isLogLevel (value : String) : Bool :=
  (Text.signedWord? value.toList).any (fun rank => 1 ≤ rank && rank ≤ 5) ||
    ["error", "warn", "info", "debug", "trace"].contains (Text.asciiLowered value)

/-- Whether a text says when colors are used. -/
def isColor (value : String) : Bool :=
  ["auto", "always", "always-ansi", "never"].contains (Text.lowered value)

/-- Whether a value can be read in the given form. -/
def Form.admits (form : Form) (value : String) : Bool :=
  match form with
  | text => true
  | path => !value.isEmpty
  | number => (Text.signedWord? value.toList).isSome
  | logLevel => isLogLevel value
  | logFormat => (LogFormat.ofText value).toOption.isSome
  | color => isColor value

/-! ## Switches -/

/-- What can be given by name. -/
inductive Switch where
  | config
  | json
  | structured
  | logLevel
  | logFormat
  | color
  | help
  | version
  /-- What the keys begin with. -/
  | start
  | limit
  | values
  | maxDepth
  | query
  | edit
  | line
  | value
  deriving DecidableEq, Repr

namespace Switch

/-- The name that follows two dashes. -/
def name : Switch → String
  | config => "config"
  | json => "json"
  | structured => "structured"
  | logLevel => "log-level"
  | logFormat => "log-format"
  | color => "color"
  | help => "help"
  | version => "version"
  | start => "prefix"
  | limit => "limit"
  | values => "values"
  | maxDepth => "max-depth"
  | query => "query"
  | edit => "edit"
  | line => "line"
  | value => "value"

/-- The letter that follows a single dash. -/
def letter? : Switch → Option Char
  | help => some 'h'
  | version => some 'V'
  | start => some 'p'
  | limit => some 'l'
  | query => some 'q'
  | line => some 'l'
  | _ => none

/-- The form of the value; none for a switch without one. -/
def form? : Switch → Option Form
  | config => some .path
  | logLevel => some .logLevel
  | logFormat => some .logFormat
  | color => some .color
  | start => some .text
  | limit => some .number
  | maxDepth => some .number
  | query => some .text
  | line => some .number
  | value => some .text
  | json => none
  | structured => none
  | help => none
  | version => none
  | values => none
  | edit => none

theorem name_injective {a b : Switch} (h : a.name = b.name) : a = b := by
  cases a <;> cases b <;> first
    | rfl
    | exact absurd h (by decide)

end Switch

/-! ## Levels -/

/-- What is known at a level of the command line. -/
structure Level where
  switches : List Switch
  /-- The forms of the operands, in order. -/
  operands : List Form
  /-- Whether the name of a command may stand here. -/
  hasCommands : Bool := false
  deriving Repr

namespace Level

/-- The switches that are known at every level. -/
def everywhere : List Switch :=
  [.config, .json, .structured, .logLevel, .logFormat, .color, .help]

/-- What stands in front of the name of a command. -/
def top : Level where
  switches := everywhere ++ [.version]
  operands := []
  hasCommands := true

/-- The switch of the given name. -/
def named? (level : Level) (name : List Char) : Option Switch :=
  level.switches.find? fun switch => switch.name.toList == name

/-- The switch of the given letter. -/
def lettered? (level : Level) (letter : Char) : Option Switch :=
  level.switches.find? fun switch => switch.letter? == some letter

end Level

/-! ## Commands -/

/-- What can be asked for. -/
inductive Command where
  | paths
  | values
  | keys
  | find
  | project
  | jump
  | edit
  deriving DecidableEq, Repr

namespace Command

/-- The name that is typed. -/
def name : Command → String
  | paths => "paths"
  | values => "values"
  | keys => "keys"
  | find => "find"
  | project => "project"
  | jump => "jump"
  | edit => "edit"

/-- All commands. -/
def all : List Command :=
  [paths, values, keys, find, project, jump, edit]

/-- The command of the given name. -/
def ofName? (name : String) : Option Command :=
  all.find? fun command => command.name == name

/-- The switches that only this command knows, and its operands. -/
def own : Command → List Switch × List Form
  | paths => ([], [.path])
  | values => ([], [.path])
  | keys => ([.start, .limit], [.path])
  | find => ([.limit], [.path, .text])
  | project => ([.values, .maxDepth], [.path])
  | jump => ([.values, .query, .edit], [.path])
  | edit => ([.line, .value], [.path])

/-- What stands behind the name of a command. -/
def level (command : Command) : Level where
  switches := Level.everywhere ++ command.own.1
  operands := command.own.2

theorem ofName?_name (command : Command) : ofName? command.name = some command := by
  cases command <;> rfl

end Command

/-- The name that asks for help where a command is expected. -/
def helpName : String := "help"

/-- Whether a text may stand where a command is expected. -/
def isCommandName (text : String) : Bool :=
  text == helpName || (Command.ofName? text).isSome

end YamlIndex.CommandLine
