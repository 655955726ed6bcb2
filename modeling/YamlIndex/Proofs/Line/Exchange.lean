import YamlIndex.Proofs.Columns
import Mathlib.Data.List.Basic
import Mathlib.Data.List.Nodup

/-!
# An index after a line was exchanged

The scan remembers of a line its text and what its *shape* has led to: the columns and the key.  A
line that gives way to another one of the same shape leaves every path in place, whatever the rest
of the document is, and only the entry on this line shows the other text.  This is the case of
moved columns where no column is moved.

Where both lines are leaves, the pass for values goes on as before too, and the entry shows the
other value.  This pass is followed step by step: a state whose entries show the other text reads
the other line, and is the state that the old line leads to, with the other text shown.

## Main results

* `scanPaths_set`, `keysStartingWith_set`, `findPath_set`: queries after a line of the same shape.
* `scanValues_set`: values after a leaf was exchanged for another one with its key.
* `mem_scanValues`, `pairwise_line_scanValues`: a value stands on a leaf, each on a line of its own.
-/

namespace YamlIndex

/-! ## Numbered lines -/

/-- The numbered line, with another text if it has the given number. -/
def exchange (number : Nat) (new : String) (line : String × Nat) : String × Nat :=
  (if line.2 = number then new else line.1, line.2)

theorem zipIdx_set (lines : List String) (i start : Nat) (new : String) :
    (lines.set i new).zipIdx start = (lines.zipIdx start).map (exchange (start + i) new) := by
  apply List.ext_getElem
  · simp
  · intro j hLeft hRight
    simp only [List.getElem_zipIdx, List.getElem_set, List.getElem_map, exchange]
    by_cases hj : i = j
    · rw [if_pos hj, if_pos (by omega)]
    · rw [if_neg hj, if_neg (by omega)]

/-- The entry, with another text if it is on the line of the given number. -/
def PathEntry.exchange (number : Nat) (text : String) (entry : PathEntry) : PathEntry :=
  { entry with text := if entry.line = number then text else entry.text }

/-- The entry, with another value and another text if it is on the line of the given number. -/
def ValueEntry.exchange (number : Nat) (value text : String) (entry : ValueEntry) : ValueEntry :=
  if entry.line = number then { entry with value, text } else entry

/-! ## Paths -/

section Exchange

variable {lines : List String} {i : Nat} {old new : String}

theorem haveMovedShapes_set (hOld : lines[i]? = some old)
    (hShape : (Line.classify new).shape = (Line.classify old).shape) :
    HaveMovedShapes id lines (lines.set i new) := by
  apply List.forall₂_iff_get.mpr
  constructor
  · exact List.length_set.symm
  · intro j hj hOther
    have hSame : (Line.classify (lines.set i new)[j]).shape = (Line.classify lines[j]).shape := by
      rw [List.getElem_set]
      by_cases hij : i = j
      · subst hij
        rw [List.getElem?_eq_getElem hj] at hOld
        rw [if_pos rfl, hShape, Option.some.inj hOld]
      · rw [if_neg hij]
    show (Line.classify lines[j]).shape.IsMoved id (Line.classify (lines.set i new)[j]).shape
    rw [hSame]
    exact .refl _

theorem trimmedAt_set (hi : i < lines.length) (number : Nat) :
    trimmedAt (lines.set i new) number =
      if number = 1 + i then Text.trimmed new else trimmedAt lines number := by
  rw [trimmedAt, trimmedAt]
  cases number with
  | zero => rw [if_neg (by omega), textAt, textAt]
  | succ j =>
      by_cases hj : j < lines.length
      · have hSet : j < (lines.set i new).length := by simpa using hj
        rw [textAt_succ hSet, textAt_succ hj, List.getElem_set]
        by_cases hij : i = j
        · rw [if_pos hij, if_pos (by omega)]
        · rw [if_neg hij, if_neg (by omega)]
      · have hSet : ¬ j < (lines.set i new).length := by simpa using hj
        rw [textAt_beyond hSet, textAt_beyond hj, if_neg (by omega)]

/-- A query that goes with the columns shows another text on a line of the same shape. -/
theorem query_set {query : List String → List PathEntry}
    (hMoved : ∀ {f : Nat → Nat} {lines others : List String}, StrictMono f →
      HaveMovedShapes f lines others →
        query others = (query lines).map (PathEntry.withTexts (trimmedAt others)))
    (hOld : lines[i]? = some old)
    (hShape : (Line.classify new).shape = (Line.classify old).shape) :
    query (lines.set i new) =
      (query lines).map (PathEntry.exchange (1 + i) (Text.trimmed new)) := by
  obtain ⟨hi, -⟩ := List.getElem?_eq_some_iff.mp hOld
  have hTexts : PathEntry.withTexts (trimmedAt (lines.set i new)) =
      PathEntry.exchange (1 + i) (Text.trimmed new) ∘ PathEntry.withTexts (trimmedAt lines) := by
    funext entry
    rw [PathEntry.withTexts, trimmedAt_set hi]
    rfl
  calc query (lines.set i new)
      = (query lines).map (PathEntry.withTexts (trimmedAt (lines.set i new))) :=
        hMoved strictMono_id (haveMovedShapes_set hOld hShape)
    _ = ((query lines).map (PathEntry.withTexts (trimmedAt lines))).map
          (PathEntry.exchange (1 + i) (Text.trimmed new)) := by rw [hTexts, List.map_map]
    _ = (query lines).map (PathEntry.exchange (1 + i) (Text.trimmed new)) := by
        rw [← hMoved strictMono_id (AreMoved.refl lines).shapes]

/-- Another line of the same shape changes the text of the entry on it, and no other entry. -/
theorem scanPaths_set (hOld : lines[i]? = some old)
    (hShape : (Line.classify new).shape = (Line.classify old).shape) :
    scanPaths (lines.set i new) =
      (scanPaths lines).map (PathEntry.exchange (1 + i) (Text.trimmed new)) :=
  query_set scanPaths_moved hOld hShape

theorem keysStartingWith_set (hOld : lines[i]? = some old)
    (hShape : (Line.classify new).shape = (Line.classify old).shape) (text : String)
    (limit : Option Nat) :
    keysStartingWith text (lines.set i new) limit =
      (keysStartingWith text lines limit).map
        (PathEntry.exchange (1 + i) (Text.trimmed new)) :=
  query_set (fun _ hLines => keysStartingWith_moved hLines text limit) hOld hShape

theorem findPath_set (hOld : lines[i]? = some old)
    (hShape : (Line.classify new).shape = (Line.classify old).shape) (query : Path)
    (limit : Option Nat) :
    findPath query (lines.set i new) limit =
      (findPath query lines limit).map (PathEntry.exchange (1 + i) (Text.trimmed new)) :=
  query_set (fun hf hLines => findPath_moved hf hLines query limit) hOld hShape

end Exchange

/-! ## Values -/

namespace Scan.ValueState

/-- The ways a pass for values reads a line: its entries stay, or the line is a leaf and its entry
comes first among them. -/
theorem found_read (state : ValueState) (line : String × Nat) :
    (state.read line).found = state.found ∨
      ∃ entry mapping, (state.read line).found = entry :: state.found ∧ entry.line = line.2 ∧
        Line.classify line.1 = .mapping mapping ∧ mapping.value = some entry.value := by
  rw [read]
  cases hLine : Line.classify line.1 with
  | mapping mapping =>
      dsimp only
      cases hValue : mapping.value with
      | none => exact .inl rfl
      | some value =>
          dsimp only
          split
          · exact .inl rfl
          · exact .inr ⟨_, mapping, rfl, rfl, rfl, hValue⟩
  | _ => exact .inl rfl

/-- The state whose entries show another value and text on the line of the given number. -/
def exchange (number : Nat) (value text : String) (state : ValueState) : ValueState :=
  { state with found := state.found.map (ValueEntry.exchange number value text) }

/-- The line of the given number and the other text are leaves with one key in one column. -/
def HasLeaf (number : Nat) (new value : String) (line : String × Nat) : Prop :=
  line.2 = number → ∃ mapping present, Line.classify line.1 = .mapping mapping ∧
    mapping.value = some present ∧
      Line.classify new = .mapping { mapping with value := some value }

theorem path_exchange (number : Nat) (value text : String) (entry : ValueEntry) :
    (entry.exchange number value text).path = entry.path := by
  rw [ValueEntry.exchange]
  split <;> rfl

theorem read_exchange (state : ValueState) {number : Nat} {new value : String}
    {line : String × Nat} (h : HasLeaf number new value line) :
    (state.exchange number value (Text.trimmed new)).read
        (YamlIndex.exchange number new line) =
      (state.read line).exchange number value (Text.trimmed new) := by
  by_cases hNumber : line.2 = number
  · obtain ⟨mapping, present, hOld, hPresent, hNew⟩ := h hNumber
    have hFirst : (YamlIndex.exchange number new line).1 = new := by
      rw [YamlIndex.exchange, if_pos hNumber]
    rw [read, hFirst, hNew, read, hOld]
    dsimp only
    rw [hPresent]
    simp only [exchange, List.any_map, Function.comp_def, path_exchange]
    split
    · rfl
    · simp [ValueEntry.exchange, YamlIndex.exchange, hNumber]
  · have hSame : YamlIndex.exchange number new line = line := by
      rw [YamlIndex.exchange, if_neg hNumber]
    rw [hSame, read, read]
    cases Line.classify line.1 with
    | mapping mapping =>
        dsimp only
        cases mapping.value with
        | none => rfl
        | some own =>
            simp only [exchange, List.any_map, Function.comp_def, path_exchange]
            split
            · rfl
            · simp [ValueEntry.exchange, hNumber]
    | _ => rfl

/-- An entry that was found stands on a leaf of the lines that were read. -/
theorem mem_foldl_read {rest : List (String × Nat)} {state : ValueState} {entry : ValueEntry}
    (h : entry ∈ (rest.foldl read state).found) :
    entry ∈ state.found ∨ ∃ line ∈ rest, entry.line = line.2 ∧ ∃ mapping,
      Line.classify line.1 = .mapping mapping ∧ mapping.value = some entry.value := by
  induction rest generalizing state with
  | nil => exact .inl h
  | cons line rest ih =>
      rcases ih h with hState | ⟨other, hOther, hLeaf⟩
      · rcases found_read state line with hSame | ⟨first, mapping, hFound, hNumber, hLeaf⟩
        · exact .inl (hSame ▸ hState)
        · rw [hFound] at hState
          rcases List.mem_cons.mp hState with rfl | hOld
          · exact .inr ⟨line, List.mem_cons_self, hNumber, mapping, hLeaf⟩
          · exact .inl hOld
      · exact .inr ⟨other, List.mem_cons_of_mem _ hOther, hLeaf⟩

/-- The entries stand on lines that were read, the last one first, and each on a line of its own. -/
def IsOrdered (next : Nat) (state : ValueState) : Prop :=
  state.found.Pairwise (fun a b => b.line < a.line) ∧ ∀ entry ∈ state.found, entry.line < next

theorem IsOrdered.foldl_read {next : Nat} {state : ValueState} (h : state.IsOrdered next)
    (rest : List String) :
    ((rest.zipIdx next).foldl read state).IsOrdered (next + rest.length) := by
  induction rest generalizing next state with
  | nil => exact h
  | cons raw rest ih =>
      have hStep : (state.read (raw, next)).IsOrdered (next + 1) := by
        obtain ⟨hPairwise, hBound⟩ := h
        rw [IsOrdered]
        rcases found_read state (raw, next) with hSame | ⟨first, mapping, hFound, hNumber, -⟩
        · rw [hSame]
          exact ⟨hPairwise, fun entry hEntry => Nat.lt_succ_of_lt (hBound entry hEntry)⟩
        · rw [hFound]
          constructor
          · rw [List.pairwise_cons]
            exact ⟨fun entry hEntry => hNumber ▸ hBound entry hEntry, hPairwise⟩
          · intro entry hEntry
            rcases List.mem_cons.mp hEntry with rfl | hOld
            · rw [hNumber]
              exact Nat.lt_succ_self next
            · exact Nat.lt_succ_of_lt (hBound entry hOld)
      have hRest := ih hStep
      rw [List.zipIdx_cons, List.foldl_cons, List.length_cons]
      rw [show next + (rest.length + 1) = next + 1 + rest.length by omega]
      exact hRest

end Scan.ValueState

section Values

variable {lines : List String}

/-- A value stands on a mapping line that has it. -/
theorem mem_scanValues {entry : ValueEntry} (h : entry ∈ scanValues lines) :
    ∃ raw mapping, 1 ≤ entry.line ∧ lines[entry.line - 1]? = some raw ∧
      Line.classify raw = .mapping mapping ∧ mapping.value = some entry.value := by
  rw [scanValues, List.mem_reverse] at h
  rcases Scan.ValueState.mem_foldl_read h with hNone | ⟨line, hLine, hNumber, mapping, hLeaf⟩
  · exact absurd hNone (by simp)
  · obtain ⟨hFirst, hAt⟩ := List.mk_mem_zipIdx_iff_le_and_getElem?_sub.mp hLine
    rw [← hNumber] at hFirst hAt
    exact ⟨line.1, mapping, hFirst, hAt, hLeaf⟩

theorem pairwise_line_scanValues (lines : List String) :
    (scanValues lines).Pairwise fun a b => a.line < b.line := by
  have hStart : Scan.ValueState.IsOrdered 1 {} := ⟨List.Pairwise.nil, by simp⟩
  rw [scanValues, List.pairwise_reverse]
  exact (hStart.foldl_read lines).1

/-- Values are told apart by their lines. -/
theorem eq_of_line_eq {a b : ValueEntry} (ha : a ∈ scanValues lines) (hb : b ∈ scanValues lines)
    (h : a.line = b.line) : a = b := by
  have hNodup : ((scanValues lines).map ValueEntry.line).Nodup := by
    rw [List.Nodup, List.pairwise_map]
    exact (pairwise_line_scanValues lines).imp fun hLt => Nat.ne_of_lt hLt
  exact List.inj_on_of_nodup_map hNodup ha hb h

/-- Another leaf in the place of a leaf with its key changes the value and the text of the entry on
this line, and no other entry. -/
theorem scanValues_set {i : Nat} {old new value present : String} {mapping : MappingLine}
    (hOld : lines[i]? = some old) (hLine : Line.classify old = .mapping mapping)
    (hPresent : mapping.value = some present)
    (hNew : Line.classify new = .mapping { mapping with value := some value }) :
    scanValues (lines.set i new) =
      (scanValues lines).map (ValueEntry.exchange (1 + i) value (Text.trimmed new)) := by
  have hLeaf : ∀ line ∈ lines.zipIdx 1, Scan.ValueState.HasLeaf (1 + i) new value line := by
    intro line hMem hNumber
    obtain ⟨-, hAt⟩ := List.mk_mem_zipIdx_iff_le_and_getElem?_sub.mp hMem
    rw [hNumber, Nat.add_sub_cancel_left, hOld] at hAt
    rw [← Option.some.inj hAt]
    exact ⟨mapping, present, hLine, hPresent, hNew⟩
  have hRun : Scan.runValues (lines.set i new) =
      (Scan.runValues lines).exchange (1 + i) value (Text.trimmed new) := by
    rw [Scan.runValues, zipIdx_set]
    exact foldl_map_lockstep
      (fun line hLine state => Scan.ValueState.read_exchange state (hLeaf line hLine)) {}
  rw [scanValues, hRun, scanValues, Scan.ValueState.exchange, List.map_reverse]

end Values

end YamlIndex
