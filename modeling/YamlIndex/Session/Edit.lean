import YamlIndex.Session.Basic

/-!
# Editing a value

A value is edited on its line: what stands up to the colon of the key is kept, the rest is replaced
by a blank and the answer to a question for the new value.  No answer, a blank one and the present
value change nothing.

After an edit nothing is remembered of the source, under whichever of its two names.
-/

namespace YamlIndex

/-- Why a value cannot be edited. -/
inductive EditError where
  | editor (error : EditorError)
  | noSuchLine (line count : Nat)
  /-- A line without a key. -/
  | noValue (line : Nat) (text : String)
  deriving DecidableEq, Repr

/-- What is said about an error. -/
def EditError.message : EditError → String
  | editor error => error.message
  | noSuchLine line count =>
    "line " ++ Text.decimal line ++ " does not exist (" ++ Text.decimal count ++ " lines)"
  | noValue line text =>
    "line " ++ Text.decimal line ++ " has no `key: value` to edit: " ++ Text.quoted text

/-- How an edit went. -/
structure EditReport where
  /-- The present value, if it was asked for a new one. -/
  offered : Option String
  /-- Whether the line has changed. -/
  result : Except EditError Bool

namespace Session

/-- The line of the given number, counted from one. -/
def lineAt? (lines : List String) : Nat → Option String
  | 0 => none
  | n + 1 => lines[n]?

/-- What is to be written in place of the present value; none if nothing is. -/
def replacement? (current : String) (answer : Option String) : Option String :=
  match answer with
  | none => none
  | some answer =>
    let new := Text.trimmed answer
    if new.isEmpty || new == current then none else some new

/-- The session without what is remembered of a source under its own name and under the other one.
-/
def forgetEdited (session : Session) (source : Source) : Session :=
  let cache := session.cache.erase source.key
  match source with
  | .focus =>
    match session.editor.current with
    | some path => { session with cache := cache.erase path }
    | none => { session with cache }
  | .file path =>
    if session.editor.isFocus path then { session with cache := cache.erase Source.focusKey }
    else { session with cache }

/-- The text up to the colon of the key and the present value on a line of a source. -/
def assignmentAt (session : Session) (source : Source) (line : Nat) :
    Except EditError (String × String) :=
  match session.editor.readLines source with
  | .error error => .error (.editor error)
  | .ok lines =>
    match lineAt? lines line with
    | none => .error (.noSuchLine line lines.length)
    | some text =>
      match Line.assignment? text with
      | none => .error (.noValue line text)
      | some assignment => .ok assignment

/-- Edits the value on a line of a source.  `ask` is given the present value. -/
def edit (session : Session) (source : Source) (line : Nat) (ask : String → Option String) :
    EditReport × Session :=
  match session.assignmentAt source line with
  | .error error => (⟨none, .error error⟩, session)
  | .ok (head, current) =>
    match replacement? current (ask current) with
    | none => (⟨some current, .ok false⟩, session)
    | some new =>
      match session.editor.replaceLine source line (head ++ " " ++ new) with
      | .error error => (⟨some current, .error (.editor error)⟩, session)
      | .ok editor =>
        (⟨some current, .ok true⟩, { session with editor }.forgetEdited source)

theorem lineAt?_eq_none_iff {lines : List String} {line : Nat} :
    lineAt? lines line = none ↔ line = 0 ∨ lines.length < line := by
  cases line with
  | zero => simp [lineAt?]
  | succ n =>
      rw [lineAt?, List.getElem?_eq_none_iff]
      omega

end Session

end YamlIndex
