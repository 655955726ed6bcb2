import YamlIndex.Entry
import YamlIndex.Session.Ledger
import YamlIndex.Text.Lowercase

/-!
# Choosing an entry

A session offers a list of choices under a prompt, together with what may be done with the one that
is taken; the first of these is what is done by default.  A picker takes one of the choices or
none.  It only chooses: what follows from the choice is the matter of the session.

## Main results

* `byQuery_mem`: a picker that goes by a query takes one of the choices that it was offered.
-/

namespace YamlIndex

/-- What is done with an entry that was taken. -/
inductive PickAction where
  | jump
  | edit
  deriving DecidableEq, Repr

/-- An entry as it is offered. -/
structure Choice where
  /-- The place in the list that is offered. -/
  index : Nat
  /-- How the entry is shown. -/
  display : String
  /-- The text that a search goes by. -/
  ordinal : String
  deriving DecidableEq, Repr

/-- What a picker is asked. -/
structure Offer where
  prompt : String
  choices : List Choice
  /-- What may be done, the default first. -/
  actions : List PickAction
  deriving DecidableEq, Repr

/-- What a picker has taken. -/
structure Selection where
  choice : Choice
  action : PickAction
  deriving DecidableEq, Repr

/-- Takes one of the choices or none. -/
abbrev Picker := Offer → Option Selection

namespace Choice

/-- Where an entry stands: its line, behind its file if it has one. -/
def place (file : Option FileMeta) (line : Nat) : String :=
  match file with
  | some file => file.relative ++ ":" ++ Text.decimal line
  | none => Text.decimal line

/-- The choices for a list, each made from its place and its element. -/
def each {α : Type} (display ordinal : α → String) (entries : List α) : List Choice :=
  entries.zipIdx.map fun (entry, index) =>
    { index, display := display entry, ordinal := ordinal entry }

/-- The choices for paths. -/
def ofPaths : List PathEntry → List Choice :=
  each (fun entry => entry.path.dotted ++ "  [" ++ place entry.file entry.line ++ "]")
    fun entry => entry.path.dotted

/-- The choices for values; a search goes by the path and the value. -/
def ofValues : List ValueEntry → List Choice :=
  each
    (fun entry =>
      entry.path.dotted ++ ": " ++ entry.value ++ "  [" ++ place entry.file entry.line ++ "]")
    fun entry => entry.path.dotted ++ " " ++ entry.value

/-- The choices for entries of either kind. -/
def ofEntries : (kind : EntryKind) → List kind.Entry → List Choice
  | .path, entries => ofPaths entries
  | .value, entries => ofValues entries

/-- The choices for targets of earlier jumps. -/
def ofTargets : List Target → List Choice :=
  each (fun target => target.kind.text ++ " " ++ target.text) fun target => target.text

end Choice

/-- The choices as lines of text. -/
def Offer.listing (offer : Offer) : String :=
  String.join (offer.choices.map fun choice => choice.display ++ "\n")

namespace Picker

/-- Takes nothing. -/
def none : Picker := fun _ => .none

/-- Whether a text occurs within another one. -/
def occursIn (part whole : List Char) : Bool :=
  match whole with
  | [] => part.isEmpty
  | c :: rest => part.isPrefixOf (c :: rest) || occursIn part rest

/-- The wanted action if it is offered, and else the default one. -/
def actionFor (offer : Offer) (wanted : PickAction) : Option PickAction :=
  if offer.actions.contains wanted then some wanted else offer.actions.head?

/-- The first choice whose ordinal contains the query, case aside. -/
def search (query : String) (choices : List Choice) : Option Choice :=
  let part := Text.lower query.toList
  choices.find? fun choice => occursIn part (Text.lower choice.ordinal.toList)

/-- Takes the first choice whose ordinal contains the query, for the wanted action if possible. -/
def byQuery (query : String) (wanted : PickAction) : Picker := fun offer =>
  match actionFor offer wanted, search query offer.choices with
  | some action, some choice => some ⟨choice, action⟩
  | _, _ => .none

theorem actionFor_mem {offer : Offer} {wanted action : PickAction}
    (h : actionFor offer wanted = some action) : action ∈ offer.actions := by
  unfold actionFor at h
  split at h
  · simp_all
  · exact List.mem_of_mem_head? h

theorem byQuery_mem {query : String} {wanted : PickAction} {offer : Offer} {selection : Selection}
    (h : byQuery query wanted offer = some selection) :
    selection.choice ∈ offer.choices ∧ selection.action ∈ offer.actions := by
  unfold byQuery at h
  split at h
  · rename_i hAction hChoice
    cases h
    exact ⟨List.mem_of_find?_eq_some hChoice, actionFor_mem hAction⟩
  · exact absurd h (by simp)

end Picker

end YamlIndex
