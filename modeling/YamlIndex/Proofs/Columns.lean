import YamlIndex.Association
import YamlIndex.Proofs.Layout
import Mathlib.Data.List.Forall2
import Mathlib.Order.Monotone.Basic

/-!
# Only the order of columns counts

The scan never computes with a column.  It compares the column of a line with those of the open
ancestors, so a map that keeps the order of columns can be applied to all of them, from line to line
as to the ancestors, and nothing else changes: each step of a pass over the moved lines leads to the
moved state.  The entries are the same, with the texts of the lines they are now found on.

A document that stands further right by the same number of blanks in every line is the case where
the map adds that number.  Trimming takes the blanks away again, so there the texts are the same
too.

## Main results

* `Ancestors.close_moved`, `Ancestors.closeItem_moved`: closing commutes with moving.
* `Scan.State.read_moved`, `Scan.ValueState.read_moved`: so does reading a line.
* `foldl_map_lockstep`, `foldl_lockstep`: and with it a pass over all lines.
* `scanPaths_moved`, `scanValues_moved`, `findPath_moved`: the queries on lines that are moved.
* `queries_by_order_of_columns`: all queries, also on lines that are shifted to the right.
-/

namespace YamlIndex

/-! ## Lines with other columns -/

namespace Line

/-- What paths are made from: the line without its value. -/
def shape : Line → Line
  | blank => blank
  | unparsed => unparsed
  | mapping line => mapping { line with value := none }
  | item line => item { line with value := none }

/-- The other line says what the line says, in columns that are moved by the map.  Where the text
of an item without a key begins is left open. -/
inductive IsMoved (f : Nat → Nat) : Line → Line → Prop
  | blank : IsMoved f .blank .blank
  | unparsed : IsMoved f .unparsed .unparsed
  | mapping (indent : Nat) (key : String) (value : Option String) :
      IsMoved f (.mapping ⟨indent, key, value⟩) (.mapping ⟨f indent, key, value⟩)
  | keyedItem (indent keyIndent : Nat) (key : String) (value : Option String) :
      IsMoved f (.item ⟨indent, some key, keyIndent, value⟩)
        (.item ⟨f indent, some key, f keyIndent, value⟩)
  | plainItem (indent keyIndent other : Nat) (value : Option String) :
      IsMoved f (.item ⟨indent, none, keyIndent, value⟩) (.item ⟨f indent, none, other, value⟩)

theorem IsMoved.refl (line : Line) : IsMoved id line line := by
  cases line with
  | blank => exact .blank
  | unparsed => exact .unparsed
  | mapping line => exact .mapping line.indent line.key line.value
  | item line =>
      obtain ⟨indent, key, keyIndent, value⟩ := line
      cases key with
      | none => exact .plainItem indent keyIndent keyIndent value
      | some key => exact .keyedItem indent keyIndent key value

theorem IsMoved.key?_eq {f : Nat → Nat} {line other : Line} (h : IsMoved f line other) :
    other.key? = line.key? := by
  cases h <;> rfl

theorem IsMoved.shape {f : Nat → Nat} {line other : Line} (h : IsMoved f line other) :
    IsMoved f line.shape other.shape := by
  cases h with
  | blank => exact .blank
  | unparsed => exact .unparsed
  | mapping indent key => exact .mapping indent key none
  | keyedItem indent keyIndent key => exact .keyedItem indent keyIndent key none
  | plainItem indent keyIndent other => exact .plainItem indent keyIndent other none

end Line

/-- Line by line, the others say what the lines say, in columns that are moved by the map. -/
def AreMoved (f : Nat → Nat) (lines others : List String) : Prop :=
  List.Forall₂ (fun line other => (Line.classify line).IsMoved f (Line.classify other)) lines others

/-- As `AreMoved`, with any values. -/
def HaveMovedShapes (f : Nat → Nat) (lines others : List String) : Prop :=
  List.Forall₂ (fun line other => (Line.classify line).shape.IsMoved f (Line.classify other).shape)
    lines others

theorem AreMoved.refl (lines : List String) : AreMoved id lines lines :=
  List.forall₂_same.mpr fun line _ => .refl (Line.classify line)

theorem AreMoved.shapes {f : Nat → Nat} {lines others : List String}
    (h : AreMoved f lines others) : HaveMovedShapes f lines others :=
  h.imp fun _ _ hLine => hLine.shape

/-! ## The same entries on other lines -/

/-- The line of the given number, counted from one. -/
def textAt (lines : List String) : Nat → String
  | 0 => ""
  | i + 1 => lines.getD i ""

/-- The line of the given number without the blanks around it. -/
def trimmedAt (lines : List String) (number : Nat) : String :=
  Text.trimmed (textAt lines number)

/-- The entry with the text that is given for its line. -/
def PathEntry.withTexts (texts : Nat → String) (entry : PathEntry) : PathEntry :=
  { entry with text := texts entry.line }

/-- The entry with the text that is given for its line. -/
def ValueEntry.withTexts (texts : Nat → String) (entry : ValueEntry) : ValueEntry :=
  { entry with text := texts entry.line }

/-- The entry with the text that is given for its line. -/
def Tied.withTexts (texts : Nat → String) (tied : Tied) : Tied :=
  { tied with text := texts tied.line }

/-- The step with the line that is given for its number. -/
def Step.withTexts (texts : Nat → String) (step : Step) : Step :=
  { step with raw := texts step.number }

theorem Step.entry_withTexts (lines : List String) (step : Step) :
    (step.withTexts (textAt lines)).entry = step.entry.withTexts (trimmedAt lines) := rfl

/-! ## Two passes in lockstep -/

section Lockstep

variable {lines others : List String} {R : String → String → Prop}

theorem textAt_succ {i : Nat} (hi : i < lines.length) : textAt lines (i + 1) = lines[i] := by
  rw [textAt, List.getD_eq_getElem?_getD, List.getElem?_eq_getElem hi, Option.getD_some]

theorem textAt_beyond {i : Nat} (hi : ¬ i < lines.length) : textAt lines (i + 1) = "" := by
  rw [textAt, List.getD_eq_getElem?_getD, List.getElem?_eq_none (Nat.not_lt.mp hi),
    Option.getD_none]

theorem zipIdx_eq_map_textAt (h : lines.length = others.length) :
    others.zipIdx 1 = (lines.zipIdx 1).map fun line => (textAt others line.2, line.2) := by
  apply List.ext_getElem
  · simp [h]
  · intro i hLeft hRight
    have hi : i < others.length := by simpa using hLeft
    simp only [List.getElem_zipIdx, List.getElem_map, Nat.add_comm 1 i, textAt_succ hi]

theorem related_textAt (h : List.Forall₂ R lines others) :
    ∀ line ∈ lines.zipIdx 1, R line.1 (textAt others line.2) := by
  intro line hLine
  obtain ⟨i, hi, hAt⟩ := List.mem_iff_getElem.mp hLine
  have hBound : i < lines.length := by simpa using hi
  have hOther : i < others.length := h.length_eq ▸ hBound
  rw [← hAt, List.getElem_zipIdx, Nat.add_comm, textAt_succ hOther]
  exact h.get hBound hOther

/-- Where reading a line commutes with a map of states, so does a pass over the lines. -/
theorem foldl_map_lockstep {σ : Type} {read : σ → String × Nat → σ} {move : σ → σ}
    {reread : String × Nat → String × Nat} {rest : List (String × Nat)}
    (hRead : ∀ line ∈ rest, ∀ state, read (move state) (reread line) = move (read state line))
    (start : σ) : (rest.map reread).foldl read (move start) = move (rest.foldl read start) := by
  -- The state is general: each line starts from the one that the lines before it lead to.
  induction rest generalizing start with
  | nil => rfl
  | cons line rest ih =>
      rw [List.map_cons, List.foldl_cons, List.foldl_cons, hRead line List.mem_cons_self]
      apply ih
      exact fun other hOther => hRead other (List.mem_cons_of_mem _ hOther)

/-- A pass over related lines, where the relation is enough to read each line alike. -/
theorem foldl_lockstep {σ : Type} {read : σ → String × Nat → σ} {move : σ → σ}
    (h : List.Forall₂ R lines others)
    (hRead : ∀ raw number state, R raw (textAt others number) →
      read (move state) (textAt others number, number) = move (read state (raw, number)))
    (start : σ) :
    (others.zipIdx 1).foldl read (move start) = move ((lines.zipIdx 1).foldl read start) := by
  rw [zipIdx_eq_map_textAt h.length_eq]
  apply foldl_map_lockstep
  intro line hLine state
  exact hRead line.1 line.2 state (related_textAt h line hLine)

end Lockstep

/-! ## Ancestors with other columns -/

/-- The ancestor in the column that the map leads to. -/
def Ancestor.moved (f : Nat → Nat) (ancestor : Ancestor) : Ancestor :=
  { ancestor with column := f ancestor.column }

namespace Ancestors

/-- The same ancestors in the columns that the map leads to. -/
def moved (f : Nat → Nat) (ancestors : Ancestors) : Ancestors :=
  ⟨ancestors.chain.map (Ancestor.moved f)⟩

section Moved

variable {f : Nat → Nat} (ancestors : Ancestors)

@[simp] theorem path_moved : (ancestors.moved f).path = ancestors.path := by
  simp [path, outermostFirst, moved, Ancestor.moved, Function.comp_def]

theorem push_moved (segment : Segment) (column : Nat) :
    (ancestors.moved f).push segment (f column) = (ancestors.push segment column).moved f := rfl

theorem close_moved (hf : StrictMono f) (column : Nat) :
    (ancestors.moved f).close (f column) = (ancestors.close column).moved f := by
  simp only [close, moved, List.dropWhile_map, Function.comp_def, Ancestor.moved, hf.le_iff_le]

theorem closeItem_moved (hf : StrictMono f) (column : Nat) :
    (ancestors.moved f).closeItem (f column) = (ancestors.closeItem column).moved f := by
  have hEq : ∀ a b : Nat, (f a == f b) = (a == b) := fun a b => by
    rw [Bool.eq_iff_iff, beq_iff_eq, beq_iff_eq]
    exact hf.injective.eq_iff
  simp only [closeItem, moved, List.dropWhile_map, Function.comp_def, Ancestor.moved,
    hf.lt_iff_lt, hEq]

end Moved

end Ancestors

/-! ## Steps of the passes -/

namespace Scan

section Moved

variable {f : Nat → Nat} {others : List String} {raw : String} {number : Nat}

/-- The state with its ancestors in other columns and its steps on other lines. -/
def State.moved (f : Nat → Nat) (others : List String) (state : State) : State :=
  { ancestors := state.ancestors.moved f
    tally := state.tally
    steps := state.steps.map (Step.withTexts (textAt others)) }

/-- The state with its ancestors in other columns and its entries on other lines. -/
def ValueState.moved (f : Nat → Nat) (others : List String) (state : ValueState) : ValueState :=
  { ancestors := state.ancestors.moved f
    found := state.found.map (ValueEntry.withTexts (trimmedAt others)) }

/-- The state after a line of the given shape. -/
def State.readShape (state : State) (number : Nat) (raw : String) : Line → State
  | .blank => state
  | .unparsed => state
  | .mapping line => state.readMapping number raw line
  | .item line => state.readItem number raw line

/-- The scan sees of a line its shape and its text. -/
theorem State.read_eq_readShape (state : State) (line : String × Nat) :
    state.read line = state.readShape line.2 line.1 (Line.classify line.1).shape := by
  rw [read]
  cases Line.classify line.1 <;> rfl

theorem State.readShape_moved (hf : StrictMono f) (state : State) {line other : Line}
    (h : line.IsMoved f other) :
    (state.moved f others).readShape number (textAt others number) other =
      (state.readShape number raw line).moved f others := by
  cases h with
  | blank => rfl
  | unparsed => rfl
  | mapping indent key value =>
      simp only [readShape, readMapping, moved, Ancestors.close_moved _ hf,
        Ancestors.push_moved, Ancestors.path_moved, List.map_cons, Step.withTexts]
  | keyedItem indent keyIndent key value =>
      -- The count goes by the path of the parents, and moving leaves that as it is.
      simp only [readShape, readItem, moved, Ancestors.closeItem_moved _ hf,
        Ancestors.push_moved, Ancestors.path_moved, List.map_cons, Step.withTexts]
  | plainItem indent keyIndent other value =>
      simp only [readShape, readItem, moved, Ancestors.closeItem_moved _ hf,
        Ancestors.path_moved, List.map_cons, Step.withTexts]

theorem State.read_moved (hf : StrictMono f) (state : State)
    (h : (Line.classify raw).shape.IsMoved f (Line.classify (textAt others number)).shape) :
    (state.moved f others).read (textAt others number, number) =
      (state.read (raw, number)).moved f others := by
  rw [read_eq_readShape, read_eq_readShape]
  exact readShape_moved hf state h

theorem ValueState.read_moved (hf : StrictMono f) (state : ValueState)
    (h : (Line.classify raw).IsMoved f (Line.classify (textAt others number))) :
    (state.moved f others).read (textAt others number, number) =
      (state.read (raw, number)).moved f others := by
  unfold read
  dsimp only
  generalize Line.classify raw = line at h ⊢
  generalize Line.classify (textAt others number) = other at h ⊢
  cases h with
  | mapping indent key value =>
      simp only [moved, Ancestors.close_moved _ hf, Ancestors.push_moved, Ancestors.path_moved]
      cases value with
      | none => rfl
      | some value =>
          -- Whether the path has been seen depends on neither columns nor texts.
          simp only [List.any_map, Function.comp_def, ValueEntry.withTexts]
          rw [apply_ite (List.map (ValueEntry.withTexts (trimmedAt others)))]
          rfl
  | _ => rfl

end Moved

end Scan

namespace Association.State

/-- The state with what has been tied on other lines. -/
def moved (others : List String) (state : State) : State :=
  { state with tied := state.tied.map (Tied.withTexts (trimmedAt others)) }

/-- A line claims the same entry of an outline in any column. -/
theorem read_moved {f : Nat → Nat} {others : List String} {raw : String} {number : Nat}
    (state : State) (h : (Line.classify raw).IsMoved f (Line.classify (textAt others number))) :
    (state.moved others).read (textAt others number, number) =
      (state.read (raw, number)).moved others := by
  unfold read
  dsimp only
  rw [h.key?_eq]
  cases (Line.classify raw).key? with
  | none => rfl
  | some key =>
      simp only [moved]
      cases state.free.claim? key with
      | none => rfl
      | some claimed => rfl

end Association.State

/-- The entry for a line of the given shape whose key starts with the text. -/
def shapeMatch? (lowerText : List Char) (number : Nat) (raw : String) : Line → Option PathEntry
  | .mapping mapping =>
    if lowerText.isPrefixOf (Text.lower mapping.key.toList) then
      some
        { line := number, key := mapping.key, text := Text.trimmed raw
          path := [.key mapping.key], isItem := false, position := none }
    else none
  | _ => none

theorem keyMatch?_eq_shapeMatch? (lowerText : List Char) (line : String × Nat) :
    keyMatch? lowerText line =
      shapeMatch? lowerText line.2 line.1 (Line.classify line.1).shape := by
  rw [keyMatch?]
  cases Line.classify line.1 <;> rfl

/-- A line is found by its key in any column. -/
theorem keyMatch?_moved {f : Nat → Nat} {others : List String} {raw : String} {number : Nat}
    (lowerText : List Char)
    (h : (Line.classify raw).shape.IsMoved f (Line.classify (textAt others number)).shape) :
    keyMatch? lowerText (textAt others number, number) =
      (keyMatch? lowerText (raw, number)).map (PathEntry.withTexts (trimmedAt others)) := by
  rw [keyMatch?_eq_shapeMatch?, keyMatch?_eq_shapeMatch?]
  dsimp only
  generalize (Line.classify raw).shape = shape at h ⊢
  generalize (Line.classify (textAt others number)).shape = other at h ⊢
  cases h with
  | mapping indent key value =>
      simp only [shapeMatch?]
      split
      · rfl
      · rfl
  | _ => rfl

/-! ## Queries on lines with other columns -/

section Queries

variable {f : Nat → Nat} {lines others : List String}

theorem limited_map {α β : Type} (limit : Option Nat) (g : α → β) (xs : List α) :
    limited limit (xs.map g) = (limited limit xs).map g := by
  cases limit with
  | none => rfl
  | some n => exact List.map_take.symm

theorem steps_moved (hf : StrictMono f) (h : HaveMovedShapes f lines others) :
    Scan.steps others = (Scan.steps lines).map (Step.withTexts (textAt others)) := by
  have hRun : Scan.run others = (Scan.run lines).moved f others :=
    foldl_lockstep h (fun _ _ state hLine => Scan.State.read_moved hf state hLine) {}
  rw [Scan.steps, hRun, Scan.steps, Scan.State.moved, List.map_reverse]

theorem scanPaths_moved (hf : StrictMono f) (h : HaveMovedShapes f lines others) :
    scanPaths others = (scanPaths lines).map (PathEntry.withTexts (trimmedAt others)) := by
  rw [scanPaths, steps_moved hf h, scanPaths, List.map_map, List.map_map]
  exact List.map_congr_left fun step _ => Step.entry_withTexts others step

theorem scanValues_moved (hf : StrictMono f) (h : AreMoved f lines others) :
    scanValues others = (scanValues lines).map (ValueEntry.withTexts (trimmedAt others)) := by
  have hRun : Scan.runValues others = (Scan.runValues lines).moved f others :=
    foldl_lockstep h (fun _ _ state hLine => Scan.ValueState.read_moved hf state hLine) {}
  rw [scanValues, hRun, scanValues, Scan.ValueState.moved, List.map_reverse]

theorem findPath_moved (hf : StrictMono f) (h : HaveMovedShapes f lines others) (query : Path)
    (limit : Option Nat) :
    findPath query others limit =
      (findPath query lines limit).map (PathEntry.withTexts (trimmedAt others)) := by
  rw [findPath, findPath]
  split
  · rfl
  · rw [steps_moved hf h, List.filter_map, limited_map, List.map_map, List.map_map]
    rfl

theorem keysStartingWith_moved (h : HaveMovedShapes f lines others) (text : String)
    (limit : Option Nat) :
    keysStartingWith text others limit =
      (keysStartingWith text lines limit).map (PathEntry.withTexts (trimmedAt others)) := by
  rw [keysStartingWith, keysStartingWith, zipIdx_eq_map_textAt h.length_eq, ← limited_map,
    List.filterMap_map, List.map_filterMap]
  congr 1
  apply List.filterMap_congr
  intro line hLine
  exact keyMatch?_moved _ (related_textAt h line hLine)

theorem associate_moved (h : AreMoved f lines others) (outline : List OutlineEntry) :
    associate outline others =
      (associate outline lines).map (Tied.withTexts (trimmedAt others)) := by
  have hRun :
      (others.zipIdx 1).foldl Association.State.read { free := .ofOutline outline } =
        ((lines.zipIdx 1).foldl Association.State.read { free := .ofOutline outline }).moved
          others :=
    foldl_lockstep h (fun _ _ state hLine => Association.State.read_moved state hLine)
      { free := .ofOutline outline }
  rw [associate, hRun, associate, Association.State.moved, List.map_reverse]

end Queries

/-! ## Lines further right -/

namespace Line

/-- What follows a marker is in columns counted from the marker. -/
theorem itemOf_add (more indent : Nat) (after : List Char) :
    (item (itemOf indent after)).IsMoved (more + ·) (item (itemOf (more + indent) after)) := by
  unfold itemOf
  dsimp only
  cases keyAndValue? (Text.trimStart after) with
  | none => exact .plainItem _ _ _ _
  | some found =>
      dsimp only
      rw [Nat.add_assoc more indent 1, Nat.add_assoc more (indent + 1)]
      exact .keyedItem _ _ _ _

/-- A text behind further blanks says the same, further right by their number. -/
theorem ofChars_append {lead : List Char} (h : Layout.IsBlanks lead) (s : List Char) :
    (ofChars s).IsMoved (lead.length + ·) (ofChars (lead ++ s)) := by
  have hRest : Text.trimStart (lead ++ s) = Text.trimStart s := trimStart_append h s
  have hIndent : indentOf (lead ++ s) = lead.length + indentOf s := by
    rw [indentOf, List.takeWhile_append_of_pos h, List.length_append, indentOf]
  have hAside : isBlankOrComment (lead ++ s) = isBlankOrComment s := by
    rw [isBlankOrComment, isBlankOrComment, hRest]
  rw [ofChars, ofChars, hAside, hRest, hIndent]
  split
  · exact .blank
  · dsimp only
    cases afterMarker? (Text.trimStart s) with
    | some after => exact itemOf_add lead.length (indentOf s) after
    | none =>
        dsimp only
        cases keyAndValue? (Text.trimStart s) with
        | none => exact .unparsed
        | some found => exact .mapping (indentOf s) found.1 found.2

end Line

instance (s : List Char) : Decidable (Layout.IsBlanks s) :=
  decidable_of_iff (s.all Text.isBlank = true) List.all_eq_true

/-- The other line is the line behind so many further blanks, of any kind. -/
def IsShifted (n : Nat) (line other : String) : Prop :=
  ∃ lead, Layout.IsBlanks lead ∧ lead.length = n ∧ other.toList = lead ++ line.toList

section Shifted

variable {n : Nat} {lines others : List String}

theorem IsShifted.isMoved {line other : String} (h : IsShifted n line other) :
    (Line.classify line).IsMoved (n + ·) (Line.classify other) := by
  obtain ⟨lead, hLead, rfl, hOther⟩ := h
  rw [Line.classify, Line.classify, hOther]
  exact Line.ofChars_append hLead line.toList

theorem IsShifted.trimmed_eq {line other : String} (h : IsShifted n line other) :
    Text.trimmed other = Text.trimmed line := by
  obtain ⟨lead, hLead, -, hOther⟩ := h
  rw [Text.trimmed, Text.trimmed, hOther, Text.trim, trimStart_append hLead, Text.trim]

theorem trimmedAt_of_isShifted (h : List.Forall₂ (IsShifted n) lines others) :
    trimmedAt others = trimmedAt lines := by
  funext number
  rw [trimmedAt, trimmedAt]
  cases number with
  | zero => rfl
  | succ i =>
      by_cases hBound : i < lines.length
      · have hOther : i < others.length := h.length_eq ▸ hBound
        rw [textAt_succ hOther, textAt_succ hBound]
        exact (h.get hBound hOther).trimmed_eq
      · have hOther : ¬ i < others.length := h.length_eq ▸ hBound
        rw [textAt_beyond hOther, textAt_beyond hBound]

/-- A query that goes with the columns and shows the texts of the lines gives the same on lines
further right. -/
theorem query_eq_of_isShifted {α : Type} {query : List String → List α}
    {withTexts : (Nat → String) → α → α}
    (hMoved : ∀ {f : Nat → Nat} {lines others : List String}, StrictMono f →
      AreMoved f lines others →
        query others = (query lines).map (withTexts (trimmedAt others)))
    (h : List.Forall₂ (IsShifted n) lines others) : query others = query lines := by
  have hAdd : StrictMono (n + ·) := fun _ _ hLt => Nat.add_lt_add_left hLt n
  have hFurther : AreMoved (n + ·) lines others := h.imp fun _ _ hLine => hLine.isMoved
  calc query others
      = (query lines).map (withTexts (trimmedAt others)) := hMoved hAdd hFurther
    _ = (query lines).map (withTexts (trimmedAt lines)) := by rw [trimmedAt_of_isShifted h]
    _ = query lines := (hMoved strictMono_id (.refl lines)).symm

end Shifted

/-- **Only the order of columns counts.**  On lines that say the same in other columns of the same
order, each query gives the same entries, with the texts of the lines they are now found on.  On
lines that all stand further right by the same number of blanks, of any kind, it gives the same. -/
theorem queries_by_order_of_columns :
    (∀ (f : Nat → Nat) (lines others : List String), StrictMono f → AreMoved f lines others →
      scanPaths others = (scanPaths lines).map (PathEntry.withTexts (trimmedAt others)) ∧
      scanValues others = (scanValues lines).map (ValueEntry.withTexts (trimmedAt others)) ∧
      (∀ query limit, findPath query others limit =
        (findPath query lines limit).map (PathEntry.withTexts (trimmedAt others))) ∧
      (∀ text limit, keysStartingWith text others limit =
        (keysStartingWith text lines limit).map (PathEntry.withTexts (trimmedAt others))) ∧
      ∀ outline, associate outline others =
        (associate outline lines).map (Tied.withTexts (trimmedAt others))) ∧
    ∀ (n : Nat) (lines others : List String), List.Forall₂ (IsShifted n) lines others →
      scanPaths others = scanPaths lines ∧
      scanValues others = scanValues lines ∧
      (∀ query limit, findPath query others limit = findPath query lines limit) ∧
      (∀ text limit, keysStartingWith text others limit = keysStartingWith text lines limit) ∧
      ∀ outline, associate outline others = associate outline lines := by
  constructor
  · intro f lines others hf h
    exact ⟨scanPaths_moved hf h.shapes, scanValues_moved hf h, findPath_moved hf h.shapes,
      keysStartingWith_moved h.shapes, associate_moved h⟩
  · intro n lines others h
    refine ⟨?_, ?_, ?_, ?_, ?_⟩
    · exact query_eq_of_isShifted (fun hf hLines => scanPaths_moved hf hLines.shapes) h
    · exact query_eq_of_isShifted scanValues_moved h
    · intro query limit
      exact query_eq_of_isShifted
        (fun hf hLines => findPath_moved hf hLines.shapes query limit) h
    · intro text limit
      exact query_eq_of_isShifted
        (fun _ hLines => keysStartingWith_moved hLines.shapes text limit) h
    · intro outline
      exact query_eq_of_isShifted (fun _ hLines => associate_moved hLines outline) h

/-- Twice the columns of an irregular document, where a key stands between a marker and the key
behind it; and the same document behind blanks of four kinds. -/
theorem queries_by_order_of_columns_irregular :
    let lines := ["a:", "   - b: 1", "    c: 2", "  d: 3"]
    let doubled := ["a: # top", "      -   b: 1", "        c: 2", "    d:  3"]
    let shifted := ["  a:", "\t    - b: 1", "\u00a0\t    c: 2", "\u2003   d: 3"]
    (StrictMono (2 * ·) ∧ AreMoved (2 * ·) lines doubled ∧
      scanPaths doubled = (scanPaths lines).map (PathEntry.withTexts (trimmedAt doubled)) ∧
      (scanPaths doubled).map (fun entry => (entry.line, entry.path.dotted, entry.text)) =
        [(1, "a", "a: # top"), (2, "a.1.b", "-   b: 1"), (3, "a.1.c", "c: 2"),
          (4, "a.d", "d:  3")]) ∧
      List.Forall₂ (IsShifted 2) lines shifted ∧ scanPaths shifted = scanPaths lines := by
  intro lines doubled shifted
  have hDouble : StrictMono (2 * ·) := fun a b hLt => Nat.mul_lt_mul_of_pos_left hLt (by decide)
  have hMoved : AreMoved (2 * ·) lines doubled := by
    refine .cons ?_ (.cons ?_ (.cons ?_ (.cons ?_ .nil)))
    · exact .mapping 0 "a" none
    · exact .keyedItem 3 5 "b" "1"
    · exact .mapping 4 "c" "2"
    · exact .mapping 2 "d" "3"
  have hShifted : List.Forall₂ (IsShifted 2) lines shifted :=
    .cons ⟨"  ".toList, by decide, rfl, rfl⟩
      (.cons ⟨"\t ".toList, by decide, rfl, rfl⟩
        (.cons ⟨"\u00a0\t".toList, by decide, rfl, rfl⟩
          (.cons ⟨"\u2003 ".toList, by decide, rfl, rfl⟩ .nil)))
  refine ⟨⟨hDouble, hMoved, ?_, by decide⟩, hShifted, ?_⟩
  · exact (queries_by_order_of_columns.1 _ lines doubled hDouble hMoved).1
  · exact (queries_by_order_of_columns.2 2 lines shifted hShifted).1

/-- The order has to be strict: where two columns become one, a key leaves its parent. -/
example : (scanPaths ["a:", "  b: 1"]).map PathEntry.path = [[.key "a"], [.key "a", .key "b"]] ∧
    (scanPaths ["a:", "b: 1"]).map PathEntry.path = [[.key "a"], [.key "b"]] := by
  decide

end YamlIndex
