import YamlIndex.CommandLine.Grammar

/-!
# Reading arguments

The arguments of a level are read from left to right.  What an argument gives is entered when the
next one gives something else, or when the level ends: until then it is pending, and a switch that
needs a value may still get it.  So of two faults the one that is met first is the one that counts.

An argument with dashes is a switch, wherever it stands; behind a lone pair of dashes all arguments
are operands.  Letters can be joined behind one dash, and the value of the last one may follow at
once.

## Main results

* `read_append`: arguments that come later do not change what the earlier ones mean.
-/

namespace YamlIndex.CommandLine

/-- Why a command line is not carried out. -/
inductive Refusal where
  /-- Help was asked for. -/
  | help
  /-- The version was asked for. -/
  | version
  /-- Nothing was given at all. -/
  | nothing
  | unknownArgument (text : String)
  | unknownCommand (text : String)
  | noCommand
  /-- Something that the command needs was not given. -/
  | incomplete (command : String)
  | noValue (switch : Switch)
  | emptyValue
  | malformed (value : String)
  | repeated (switch : Switch)
  /-- A value for a switch that takes none. -/
  | needlessValue (switch : Switch)
  deriving DecidableEq, Repr

/-- What was given at a level. -/
structure Given where
  /-- With the empty text for a switch that takes no value. -/
  switches : List (Switch × String) := []
  operands : List String := []
  deriving Repr

/-- The value, if it can be read in the given form. -/
def Form.check (form : Form) (value : String) : Except Refusal String :=
  if form.admits value then .ok value
  else if form = .path then .error .emptyValue
  else .error (.malformed value)

namespace Given

/-- Whether a switch was given. -/
def has (given : Given) (switch : Switch) : Bool :=
  given.switches.any fun entry => entry.1 == switch

/-- The value that was given for a switch. -/
def value? (given : Given) (switch : Switch) : Option String :=
  given.switches.lookup switch

/-- The number that was given for a switch. -/
def number? (given : Given) (switch : Switch) : Option Nat :=
  (given.value? switch).bind fun value => Text.signedWord? value.toList

/-- Enters a switch, which may be given once only. -/
def addSwitch (given : Given) (switch : Switch) (value : Except Refusal String) :
    Except Refusal Given :=
  if given.has switch then .error (.repeated switch)
  else value.map fun value => { given with switches := given.switches ++ [(switch, value)] }

/-- Enters a switch that takes no value. -/
def addFlag (given : Given) : Switch → Except Refusal Given
  | .help => .error .help
  | .version => .error .version
  | switch => given.addSwitch switch (.ok "")

end Given

/-- What was read and is not entered yet. -/
inductive Pending where
  | nothing
  /-- A switch whose value is to come. -/
  | awaiting (switch : Switch) (form : Form)
  | switch (switch : Switch) (form : Form) (value : String)
  | operand (form : Form) (value : String)
  deriving Repr

/-- How far the reading of a level has come. -/
structure Progress where
  given : Given := {}
  pending : Pending := .nothing
  /-- The operands that may still come. -/
  expected : List Form
  /-- Whether all that comes is an operand. -/
  operandsOnly : Bool := false
  deriving Repr

namespace Progress

/-- What was given, with what was pending entered. -/
def settle (progress : Progress) : Except Refusal Given :=
  match progress.pending with
  | .nothing => .ok progress.given
  | .awaiting switch _ => .error (.noValue switch)
  | .switch switch form value => progress.given.addSwitch switch (form.check value)
  | .operand form value =>
    (form.check value).map fun value =>
      { progress.given with operands := progress.given.operands ++ [value] }

/-- Enters what was pending and then what the given rule adds. -/
def enter (progress : Progress) (add : Given → Except Refusal Given) :
    Except Refusal Progress := do
  return { progress with given := ← add (← progress.settle), pending := .nothing }

/-- Enters what was pending and leaves something else pending. -/
def await (progress : Progress) (pending : Pending) : Except Refusal Progress := do
  return { progress with given := ← progress.settle, pending }

/-- Whether the next argument can be the value of a switch. -/
def isAwaiting (progress : Progress) : Bool :=
  match progress.pending with
  | .awaiting _ _ => !progress.operandsOnly
  | _ => false

end Progress

namespace Level

/-- Why an operand too many is refused. -/
def surplus (level : Level) (progress : Progress) (argument : String) : Refusal :=
  if level.hasCommands && !(progress.operandsOnly && isCommandName argument) then
    .unknownCommand argument
  else .unknownArgument argument

/-- Reads a value or an operand. -/
def takePlain (level : Level) (progress : Progress) (argument : String) :
    Except Refusal Progress :=
  match progress.isAwaiting, progress.pending with
  | true, .awaiting switch form =>
    .ok { progress with pending := .switch switch form argument }
  | _, _ =>
    match progress.expected with
    | [] => .error (level.surplus progress argument)
    | form :: expected =>
      Progress.await { progress with expected } (.operand form argument)

/-- Reads a switch by its name, with its value behind an equals sign if it stands there. -/
def takeNamed (level : Level) (progress : Progress) (text : List Char) :
    Except Refusal Progress :=
  let (name, value) := match Text.splitFirst '=' text with
    | some (name, value) => (name, some (String.ofList value))
    | none => (text, none)
  match level.named? name with
  | none => .error (.unknownArgument (String.ofList ('-' :: '-' :: text)))
  | some switch =>
    match switch.form?, value with
    | none, none => progress.enter fun given => given.addFlag switch
    | none, some _ => .error (.needlessValue switch)
    | some form, none => progress.await (.awaiting switch form)
    | some form, some value =>
      progress.enter fun given => given.addSwitch switch (form.check value)

/-- A value that stands behind a letter, without an equals sign in front. -/
def attached : List Char → String
  | '=' :: value => String.ofList value
  | value => String.ofList value

/-- Reads switches by their letters. -/
def takeLetters (level : Level) : Progress → List Char → Except Refusal Progress
  | progress, [] => .ok progress
  | progress, letter :: rest =>
    match level.lettered? letter with
    | none => .error (.unknownArgument (String.ofList ('-' :: letter :: rest)))
    | some switch =>
      match switch.form? with
      | none => do
        let progress ← progress.enter fun given => given.addFlag switch
        level.takeLetters progress rest
      | some form =>
        if rest.isEmpty then progress.await (.awaiting switch form)
        else progress.enter fun given => given.addSwitch switch (form.check (attached rest))

/-- Reads one argument. -/
def take (level : Level) (progress : Progress) (argument : String) : Except Refusal Progress :=
  if progress.operandsOnly then level.takePlain progress argument
  else
    match argument.toList with
    | ['-', '-'] => .ok { progress with operandsOnly := true }
    | '-' :: '-' :: text => level.takeNamed progress text
    | '-' :: letter :: rest => level.takeLetters progress (letter :: rest)
    | _ => level.takePlain progress argument

/-- Whether an argument ends a level because it is the name of a command. -/
def endsAt (level : Level) (progress : Progress) (argument : String) : Bool :=
  level.hasCommands && !progress.operandsOnly && !progress.isAwaiting && isCommandName argument

/-- Reads arguments up to the name of a command; what is returned with it is what follows it. -/
def read (level : Level) :
    Progress → List String → Except Refusal (Progress × Option (String × List String))
  | progress, [] => .ok (progress, none)
  | progress, argument :: rest =>
    if level.endsAt progress argument then .ok (progress, some (argument, rest))
    else do level.read (← level.take progress argument) rest

/-- Reads the arguments of a level from its start. -/
def start (level : Level) (arguments : List String) :
    Except Refusal (Progress × Option (String × List String)) :=
  level.read { expected := level.operands } arguments

theorem read_append {level : Level} {progress reached : Progress} {arguments : List String}
    (more : List String) (h : level.read progress arguments = .ok (reached, none)) :
    level.read progress (arguments ++ more) = level.read reached more := by
  induction arguments generalizing progress with
  | nil =>
    cases h
    rfl
  | cons argument rest ih =>
    simp only [read, List.cons_append] at h ⊢
    split at h
    · exact absurd h (by simp)
    · rename_i hEnd
      rw [if_neg hEnd]
      cases hTake : level.take progress argument with
      | error refusal => simp [hTake, bind, Except.bind] at h
      | ok next =>
        rw [hTake] at h
        exact ih h

end Level

end YamlIndex.CommandLine
