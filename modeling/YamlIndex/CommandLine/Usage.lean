import YamlIndex.CommandLine.Arguments

/-!
# Usage

What is said about a command line that is not carried out.  Help is made from the grammar, so it
names what is known and nothing else.
-/

namespace YamlIndex.CommandLine

/-- The number of this version. -/
def versionText : String := "0.1.0"

/-- A switch as it is shown. -/
def Switch.usage (switch : Switch) : String :=
  let value := if switch.form?.isSome then " VALUE" else ""
  "--" ++ switch.name ++ value

/-- A command as it is shown, with its operands and its own switches. -/
def Command.usage (command : Command) : String :=
  String.intercalate " "
    (command.name :: command.own.2.map (fun form => if form = .path then "PATH" else "TEXT") ++
      command.own.1.map fun switch => "[" ++ switch.usage ++ "]")

/-- The lines of help about commands. -/
def commandLines : List String :=
  Command.all.map fun command => "  " ++ command.usage

/-- The lines of help about switches. -/
def switchLines : List String :=
  Level.top.switches.map fun switch => "  " ++ switch.usage

/-- What is said when help is asked for. -/
def helpText : String :=
  String.intercalate "\n" (["Commands:"] ++ commandLines ++ ["Options:"] ++ switchLines)

/-- What is said about a command line that is not carried out. -/
def Refusal.message : Refusal → String
  | help => helpText
  | version => versionText
  | nothing => helpText
  | unknownArgument text => "unexpected argument " ++ text
  | unknownCommand text => "unrecognized command " ++ text
  | noCommand => "a command is required"
  | incomplete command => "arguments are missing for " ++ command
  | noValue switch => "a value is required for --" ++ switch.name
  | emptyValue => "a path cannot be empty"
  | malformed value => "invalid value " ++ value
  | repeated switch => "--" ++ switch.name ++ " cannot be used more than once"
  | needlessValue switch => "--" ++ switch.name ++ " takes no value"

/-- Whether a command line got what it asked for although nothing is carried out. -/
def Refusal.isAnswer : Refusal → Bool
  | help => true
  | version => true
  | _ => false

end YamlIndex.CommandLine
