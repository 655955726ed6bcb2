import YamlIndex.Session.Basic
import YamlIndex.Session.Picker

/-!
# Jumping

A jump moves the cursor to the line of an entry that a picker has taken, and enters its target in
the ledger.  Targets of earlier jumps can be picked again; they are looked for in the source as it
is now.

Nothing is asked when there is nothing to choose from.  A pick that does not end in a jump moves
nothing and adds nothing to the ledger.
-/

namespace YamlIndex

/-- Where a jump has led. -/
structure Jump where
  source : Source
  line : Nat
  action : PickAction
  deriving DecidableEq, Repr

/-- Why a jump to an earlier target fails. -/
inductive JumpError where
  | editor (error : EditorError)
  /-- The target is not there any more. -/
  | gone (target : Target)
  deriving DecidableEq, Repr

/-- What is said about an error. -/
def JumpError.message : JumpError → String
  | editor error => error.message
  | gone target => target.kind.text ++ " " ++ Text.quoted target.text ++ " not found"

/-- How a pick went. -/
structure Attempt where
  /-- What the picker was asked, if it was. -/
  offer : Option Offer
  result : Except JumpError (Option Jump)

namespace EntryKind

/-- The prompt for a choice of entries. -/
def prompt : EntryKind → String
  | path => "YAML paths"
  | value => "YAML values"

/-- What may be done with an entry: only values can be edited. -/
def actions : EntryKind → List PickAction
  | path => [.jump]
  | value => [.jump, .edit]

end EntryKind

namespace Session

/-- Moves the cursor to a line of a source and enters the target in the ledger. -/
def land (session : Session) (source : Source) (line : Nat) (action : PickAction)
    (target : Target) : Except EditorError (Jump × Session) :=
  (session.editor.moveTo source line).map fun editor =>
    (⟨source, line, action⟩, { session with editor, ledger := session.ledger.add target })

/-- The source that an entry is from: its file, or the given one. -/
def sourceOf (source : Source) (file : Option FileMeta) : Source :=
  match file with
  | some file => .file file.path
  | none => source

/-- The attempt and the session after an offer was answered by a landing. -/
def landed (session : Session) (offer : Offer) :
    Except EditorError (Jump × Session) → Attempt × Session
  | .error error => (⟨some offer, .error (.editor error)⟩, session)
  | .ok (jump, session) => (⟨some offer, .ok (some jump)⟩, session)

/-- Offers entries and jumps to the one that is taken. -/
def pick (session : Session) (kind : EntryKind) (source : Source) (entries : List kind.Entry)
    (picker : Picker) : Attempt × Session :=
  if entries.isEmpty then (⟨none, .ok none⟩, session)
  else
    let offer := ⟨kind.prompt, Choice.ofEntries kind entries, kind.actions⟩
    match picker offer with
    | none => (⟨some offer, .ok none⟩, session)
    | some selection =>
      match entries[selection.choice.index]? with
      | none => (⟨some offer, .ok none⟩, session)
      | some entry =>
        session.landed offer
          (session.land (sourceOf source (kind.file entry)) (kind.line entry) selection.action
            ⟨kind, kind.target entry⟩)

/-- Offers the entries of a source and jumps to the one that is taken. -/
def jumpTo (session : Session) (kind : EntryKind) (source : Source) (picker : Picker) :
    Attempt × Session :=
  match session.entries kind source with
  | .error error => (⟨none, .error (.editor error)⟩, session)
  | .ok (entries, session) => session.pick kind source entries picker

/-- The line where a target is found in a source now. -/
def lineOf (session : Session) (source : Source) (target : Target) :
    Except EditorError (Option Nat × Session) :=
  match target.kind with
  | .path =>
    (session.find source target.text (some 1)).map fun (found, session) =>
      (found.head?.map PathEntry.line, session)
  | .value =>
    (session.values source).map fun (values, session) =>
      ((values.find? fun entry => entry.value == target.text).map ValueEntry.line, session)

/-- Offers the targets of earlier jumps, the latest first, and jumps to the one that is taken. -/
def jumpBack (session : Session) (source : Source) (picker : Picker) : Attempt × Session :=
  let recent := session.ledger.records.reverse
  if recent.isEmpty then (⟨none, .ok none⟩, session)
  else
    let offer := ⟨"YAML history", Choice.ofTargets recent, [.jump]⟩
    match picker offer with
    | none => (⟨some offer, .ok none⟩, session)
    | some selection =>
      match recent[selection.choice.index]? with
      | none => (⟨some offer, .ok none⟩, session)
      | some target =>
        match session.lineOf source target with
        | .error error => (⟨some offer, .error (.editor error)⟩, session)
        | .ok (none, session) => (⟨some offer, .error (.gone target)⟩, session)
        | .ok (some line, session) =>
          session.landed offer (session.land source line selection.action target)

end Session

end YamlIndex
