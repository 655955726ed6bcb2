import YamlIndex.Text.Lines
import Mathlib.Data.List.Basic

/-!
# A text around one of its lines

A text is written anew around one line: what stands in front of the line and behind it is kept
character by character, and so is what ends the line.  `Text.IsLineAt` says where a line stands
without cutting the text into pieces.  In front of the line are whole lines, as many as its number
less one; the line itself has no line feed; behind it are its ending and the rest.

Such a cut is the normal form that everything here goes through.  A text is cut at each of its
lines, the exchange of a body gives the same cut with the new body in it, and the lines of the whole
are those of the parts.  What is written in place of a line may well be several lines.

## Main results

* `exists_isLineAt`, `IsLineAt.bounds`: a text is cut at a line just if it has the line.
* `IsLineAt.replaceBody`: the body of a line is exchanged, and all else is kept.
* `IsLineAt.splice`: what was written is the line of the same number, if it is one line.
* `IsLineAt.lines_splice`, `length_lines`: the lines of the text when something that ends in neither
  a line feed nor a carriage return is written in place of a line.
-/

namespace YamlIndex.Text

/-! ## Whole lines -/

/-- Whether a text consists of whole lines: it is empty or ends in a line feed. -/
def IsWhole (s : List Char) : Prop :=
  ∀ c ∈ s.getLast?, c = '\n'

theorem isWhole_nil : IsWhole [] := by
  simp [IsWhole]

theorem IsWhole.of_cons {c : Char} {s : List Char} (h : IsWhole (c :: s)) : IsWhole s := by
  cases s with
  | nil => exact isWhole_nil
  | cons d s => rwa [IsWhole, List.getLast?_cons_cons] at h

theorem IsWhole.getLast? {s : List Char} (h : IsWhole s) (hNe : s ≠ []) :
    s.getLast? = some '\n' := by
  have hLast := List.getLast?_eq_some_getLast hNe
  rw [hLast, h _ hLast]

theorem IsWhole.append_break {front s : List Char} (h : IsWhole s) :
    IsWhole (front ++ '\n' :: s) := by
  intro c hc
  cases s with
  | nil => simpa [eq_comm] using hc
  | cons d s =>
      rw [List.getLast?_append_of_ne_nil _ (by simp), List.getLast?_cons_cons] at hc
      exact h c hc

/-- A line feed is a piece of its own when it comes first. -/
theorem pieces_cons_break (s : List Char) : pieces ('\n' :: s) = ['\n'] :: pieces s := rfl

/-- Any other character goes to the piece that follows. -/
theorem pieces_cons_of_ne {c : Char} (hc : c ≠ '\n') {s piece : List Char}
    {others : List (List Char)} (h : pieces s = piece :: others) :
    pieces (c :: s) = (c :: piece) :: others := by
  rw [pieces, List.foldr_cons, ← pieces, if_neg hc, h]

theorem exists_pieces_cons (c : Char) (s : List Char) :
    ∃ piece others, pieces (c :: s) = piece :: others := by
  apply List.exists_cons_of_ne_nil
  intro hNil
  have hFlat := flatten_pieces (c :: s)
  rw [hNil] at hFlat
  exact absurd hFlat (by simp)

/-- A text without a line feed is a piece of its own. -/
theorem pieces_of_notMem {s : List Char} (h : '\n' ∉ s) (hNe : s ≠ []) : pieces s = [s] := by
  induction s with
  | nil => exact absurd rfl hNe
  | cons c s ih =>
      have hc : c ≠ '\n' := fun hEq => h (by simp [hEq])
      have hs : '\n' ∉ s := fun hMem => h (by simp [hMem])
      cases s with
      | nil => simp [pieces, hc]
      | cons d s => exact pieces_cons_of_ne hc (ih hs (by simp))

/-- The first line feed of a text ends its first piece. -/
theorem pieces_append_break {front : List Char} (h : '\n' ∉ front) (rest : List Char) :
    pieces (front ++ '\n' :: rest) = (front ++ ['\n']) :: pieces rest := by
  induction front with
  | nil => rfl
  | cons c front ih =>
      have hc : c ≠ '\n' := fun hEq => h (by simp [hEq])
      have hFront : '\n' ∉ front := fun hMem => h (by simp [hMem])
      exact pieces_cons_of_ne hc (ih hFront)

/-- Behind whole lines a text is cut as if it stood alone. -/
theorem pieces_append_of_isWhole {front : List Char} (h : IsWhole front) (s : List Char) :
    pieces (front ++ s) = pieces front ++ pieces s := by
  induction front with
  | nil => rfl
  | cons c front ih =>
      by_cases hc : c = '\n'
      · subst hc
        rw [List.cons_append, pieces_cons_break, pieces_cons_break, ih h.of_cons, List.cons_append]
      · cases front with
        | nil => exact absurd (h c rfl) hc
        | cons d front =>
            obtain ⟨piece, others, hPieces⟩ := exists_pieces_cons d front
            have hRest : pieces (d :: front ++ s) = piece :: (others ++ pieces s) := by
              rw [ih h.of_cons, hPieces, List.cons_append]
            rw [List.cons_append, pieces_cons_of_ne hc hRest, pieces_cons_of_ne hc hPieces,
              List.cons_append]

/-- Whole lines are counted by their line feeds. -/
theorem length_pieces_of_isWhole {s : List Char} (h : IsWhole s) :
    (pieces s).length = s.count '\n' := by
  induction s with
  | nil => rfl
  | cons c s ih =>
      by_cases hc : c = '\n'
      · subst hc
        rw [pieces_cons_break, List.length_cons, ih h.of_cons, List.count_cons_self]
      · cases s with
        | nil => exact absurd (h c rfl) hc
        | cons d s =>
            obtain ⟨piece, others, hPieces⟩ := exists_pieces_cons d s
            have hRest := ih h.of_cons
            rw [hPieces] at hRest
            rw [pieces_cons_of_ne hc hPieces, List.count_cons_of_ne hc, ← hRest]
            rfl

/-- A text is whole lines and a remainder without a line feed. -/
theorem exists_isWhole_append (s : List Char) :
    ∃ front last, s = front ++ last ∧ IsWhole front ∧ '\n' ∉ last := by
  induction s with
  | nil => exact ⟨[], [], rfl, isWhole_nil, by simp⟩
  | cons c s ih =>
      obtain ⟨front, last, rfl, hWhole, hLast⟩ := ih
      cases front with
      | cons d front =>
          refine ⟨c :: d :: front, last, rfl, ?_, hLast⟩
          rwa [IsWhole, List.getLast?_cons_cons]
      | nil =>
          by_cases hc : c = '\n'
          · subst hc
            exact ⟨['\n'], last, rfl, by simp [IsWhole], hLast⟩
          · refine ⟨[], c :: last, rfl, isWhole_nil, ?_⟩
            rw [List.mem_cons, not_or]
            exact ⟨fun hEq => hc hEq.symm, hLast⟩

/-! ## Where a line ends -/

/-- What may stand between a line and the rest of its text: a line feed, unless the line ends in
a carriage return; a carriage return and a line feed; or nothing, at the end of the text. -/
inductive EndsLine (line : List Char) : List Char → List Char → Prop
  | lineFeed {rest : List Char} (hReturn : line.getLast? ≠ some '\r') : EndsLine line ['\n'] rest
  | returnBreak {rest : List Char} : EndsLine line ['\r', '\n'] rest
  | textEnd (hNe : line ≠ []) : EndsLine line [] []

section Ending

variable {line ending rest : List Char}

theorem terminator_of_notMem {s : List Char} (h : '\n' ∉ s) : terminator s = [] := by
  unfold terminator
  split
  · rename_i hReverse
    exact absurd (List.mem_reverse.mp (hReverse ▸ List.mem_cons_self)) h
  · rename_i hReverse
    exact absurd (List.mem_reverse.mp (hReverse ▸ List.mem_cons_self)) h
  · rfl

theorem EndsLine.terminator (h : EndsLine line ending rest) (hLine : '\n' ∉ line) :
    terminator (line ++ ending) = ending := by
  cases h with
  | lineFeed hReturn =>
      rw [Text.terminator, List.reverse_append, List.reverse_singleton, List.singleton_append]
      split
      · rename_i hReverse
        have hLast : line.getLast? = some '\r' := by
          rw [List.getLast?_eq_head?_reverse, (List.cons.inj hReverse).2]
          rfl
        exact absurd hLast hReturn
      · rfl
      · rename_i hFirst
        exact absurd rfl (hFirst _)
  | returnBreak => simp [Text.terminator]
  | textEnd hNe => rw [List.append_nil, terminator_of_notMem hLine]

theorem EndsLine.body (h : EndsLine line ending rest) (hLine : '\n' ∉ line) :
    body (line ++ ending) = line := by
  rw [Text.body, h.terminator hLine, List.length_append, Nat.add_sub_cancel, List.take_left]

/-- A line and its ending are the first piece of a text. -/
theorem EndsLine.pieces (h : EndsLine line ending rest) (hLine : '\n' ∉ line) :
    pieces (line ++ ending ++ rest) = (line ++ ending) :: pieces rest := by
  cases h with
  | lineFeed hReturn =>
      rw [List.append_assoc, List.singleton_append, pieces_append_break hLine]
  | returnBreak =>
      have hWhole : '\n' ∉ line ++ ['\r'] := by simp [hLine]
      have hText : line ++ ['\r', '\n'] ++ rest = (line ++ ['\r']) ++ '\n' :: rest := by simp
      rw [hText, pieces_append_break hWhole, List.append_assoc, List.singleton_append]
  | textEnd hNe =>
      rw [List.append_nil, List.append_nil, pieces_of_notMem hLine hNe]
      rfl

theorem EndsLine.lines (h : EndsLine line ending rest) (hLine : '\n' ∉ line) :
    lines (line ++ ending ++ rest) = line :: lines rest := by
  rw [Text.lines, h.pieces hLine, List.map_cons, h.body hLine, Text.lines]

/-- Another line may stand in front of the same ending. -/
theorem EndsLine.of_ends (h : EndsLine line ending rest) {new : List Char} (hNe : new ≠ [])
    (hReturn : new.getLast? ≠ some '\r') : EndsLine new ending rest := by
  cases h with
  | lineFeed _ => exact .lineFeed hReturn
  | returnBreak => exact .returnBreak
  | textEnd _ => exact .textEnd hNe

/-- What stands in front of the first line feed is a line with its ending. -/
theorem exists_endsLine (front rest : List Char) :
    ∃ line ending, front ++ ['\n'] = line ++ ending ∧ (∀ c ∈ line, c ∈ front) ∧
      EndsLine line ending rest := by
  by_cases h : front.getLast? = some '\r'
  · obtain ⟨line, rfl⟩ := List.getLast?_eq_some_iff.mp h
    exact ⟨line, ['\r', '\n'], by simp, fun c hc => by simp [hc], .returnBreak⟩
  · exact ⟨front, ['\n'], rfl, fun c hc => hc, .lineFeed h⟩

end Ending

theorem lines_append_of_isWhole {front : List Char} (h : IsWhole front) (s : List Char) :
    lines (front ++ s) = lines front ++ lines s := by
  rw [lines, pieces_append_of_isWhole h, List.map_append, lines, lines]

theorem lines_of_notMem {s : List Char} (h : '\n' ∉ s) (hNe : s ≠ []) : lines s = [s] := by
  have hLines := (EndsLine.textEnd hNe).lines h
  rwa [List.append_nil, List.append_nil] at hLines

/-- A text that does not end in a line feed is whole lines and one more line. -/
theorem exists_lines_concat {s : List Char} (hNe : s ≠ []) (hBreak : s.getLast? ≠ some '\n') :
    ∃ whole last, s = whole ++ last ∧ IsWhole whole ∧ '\n' ∉ last ∧ last ≠ [] ∧
      lines s = lines whole ++ [last] := by
  obtain ⟨whole, last, rfl, hWhole, hLast⟩ := exists_isWhole_append s
  have hSome : last ≠ [] := by
    rintro rfl
    rw [List.append_nil] at hNe hBreak
    exact hBreak (hWhole.getLast? hNe)
  refine ⟨whole, last, rfl, hWhole, hLast, hSome, ?_⟩
  rw [lines_append_of_isWhole hWhole, lines_of_notMem hLast hSome]

/-- Such a text has one line more than line feeds. -/
theorem length_lines {s : List Char} (hNe : s ≠ []) (hBreak : s.getLast? ≠ some '\n') :
    (lines s).length = s.count '\n' + 1 := by
  obtain ⟨whole, last, rfl, hWhole, hLast, -, hLines⟩ := exists_lines_concat hNe hBreak
  rw [hLines, List.length_append, lines, List.length_map, length_pieces_of_isWhole hWhole,
    List.count_append, List.count_eq_zero.mpr hLast, List.length_singleton, Nat.add_zero]

/-! ## A line in its text -/

/-- The text has the line of the given number, counted from one, behind `front`; what ends the line
and the rest of the text follow it. -/
structure IsLineAt (s : List Char) (number : Nat) (front line ending rest : List Char) : Prop where
  text : s = front ++ (line ++ ending ++ rest)
  whole : IsWhole front
  number : front.count '\n' + 1 = number
  oneLine : '\n' ∉ line
  ends : EndsLine line ending rest

/-- A text is cut at each of its lines.  The induction is on the number of the line; each step takes
one piece off the front of the text. -/
theorem exists_isLineAt {number : Nat} {s : List Char} (hFirst : 1 ≤ number)
    (hLast : number ≤ (lines s).length) :
    ∃ front line ending rest, IsLineAt s number front line ending rest := by
  induction number generalizing s with
  | zero => omega
  | succ n ih =>
      by_cases hMem : '\n' ∈ s
      · obtain ⟨first, others, rfl, hFirstLine⟩ := List.eq_append_cons_of_mem hMem
        cases n with
        | zero =>
            obtain ⟨line, ending, hEq, hIn, hEnds⟩ := exists_endsLine first others
            refine ⟨[], line, ending, others, ?_, isWhole_nil, rfl, ?_, hEnds⟩
            · rw [List.nil_append, ← hEq]
              simp
            · exact fun hBreak => hFirstLine (hIn _ hBreak)
        | succ n =>
            have hRest : n + 1 ≤ (lines others).length := by
              rw [lines, pieces_append_break hFirstLine, List.map_cons, List.length_cons,
                ← lines] at hLast
              omega
            obtain ⟨front, line, ending, rest, hCut⟩ := ih (by omega) hRest
            refine ⟨first ++ '\n' :: front, line, ending, rest, ?_, hCut.whole.append_break, ?_,
              hCut.oneLine, hCut.ends⟩
            · rw [hCut.text]
              simp
            · rw [List.count_append, List.count_eq_zero.mpr hFirstLine, List.count_cons_self]
              have hNumber := hCut.number
              omega
      · have hNe : s ≠ [] := by
          rintro rfl
          exact absurd hLast (by simp [lines, pieces])
        rw [lines_of_notMem hMem hNe, List.length_singleton] at hLast
        have hZero : n = 0 := by omega
        subst hZero
        exact ⟨[], s, [], [], by simp, isWhole_nil, rfl, hMem, .textEnd hNe⟩

section Cut

variable {s front line ending rest new : List Char} {number : Nat}

theorem IsLineAt.pieces (h : IsLineAt s number front line ending rest) :
    pieces s = pieces front ++ (line ++ ending) :: pieces rest := by
  rw [h.text, pieces_append_of_isWhole h.whole, h.ends.pieces h.oneLine]

theorem IsLineAt.lines (h : IsLineAt s number front line ending rest) :
    lines s = lines front ++ line :: lines rest := by
  rw [h.text, lines_append_of_isWhole h.whole, h.ends.lines h.oneLine]

theorem IsLineAt.length_lines_front (h : IsLineAt s number front line ending rest) :
    (Text.lines front).length + 1 = number := by
  rw [Text.lines, List.length_map, length_pieces_of_isWhole h.whole, h.number]

theorem IsLineAt.bounds (h : IsLineAt s number front line ending rest) :
    1 ≤ number ∧ number ≤ (Text.lines s).length := by
  have hFront := h.length_lines_front
  rw [h.lines, List.length_append, List.length_cons]
  omega

theorem IsLineAt.getElem? (h : IsLineAt s number front line ending rest) :
    (Text.lines s)[number - 1]? = some line := by
  have hFront := h.length_lines_front
  rw [h.lines, show number - 1 = (Text.lines front).length by omega,
    List.getElem?_append_right (Nat.le_refl _), Nat.sub_self]
  rfl

theorem IsLineAt.take (h : IsLineAt s number front line ending rest) :
    (Text.lines s).take (number - 1) = Text.lines front := by
  have hFront := h.length_lines_front
  rw [h.lines, show number - 1 = (Text.lines front).length by omega, List.take_left]

theorem IsLineAt.drop (h : IsLineAt s number front line ending rest) :
    (Text.lines s).drop number = Text.lines rest := by
  have hFront := h.length_lines_front
  rw [h.lines, ← hFront, List.append_cons]
  exact List.drop_left' (by simp)

/-- The body of a line is exchanged where the line stands. -/
theorem IsLineAt.replaceBody (h : IsLineAt s number front line ending rest) :
    replaceBody number new s = some (front ++ (new ++ ending ++ rest)) := by
  obtain ⟨n, rfl⟩ : ∃ n, number = n + 1 := ⟨number - 1, by have := h.bounds; omega⟩
  have hFront : (Text.pieces front).length = n := by
    have hLines := h.length_lines_front
    rw [Text.lines, List.length_map] at hLines
    omega
  have hIn : n < (Text.pieces s).length := by
    rw [h.pieces, List.length_append, List.length_cons]
    omega
  have hModify : (Text.pieces s).modify n (fun piece => new ++ terminator piece) =
      Text.pieces front ++ (new ++ ending) :: Text.pieces rest := by
    rw [h.pieces, ← hFront, List.modify_eq_take_drop, List.take_left, List.drop_left,
      List.modifyHead_cons, h.ends.terminator h.oneLine]
  rw [Text.replaceBody, if_pos hIn, hModify, List.flatten_append, List.flatten_cons,
    flatten_pieces, flatten_pieces]

/-- What was written in place of a line is the line of this number, if it is one line. -/
theorem IsLineAt.splice (h : IsLineAt s number front line ending rest) (hNe : new ≠ [])
    (hBreak : '\n' ∉ new) (hReturn : new.getLast? ≠ some '\r') :
    IsLineAt (front ++ (new ++ ending ++ rest)) number front new ending rest :=
  ⟨rfl, h.whole, h.number, hBreak, h.ends.of_ends hNe hReturn⟩

theorem IsLineAt.lines_eq_set (h : IsLineAt s number front line ending rest) :
    Text.lines front ++ new :: Text.lines rest = (Text.lines s).set (number - 1) new := by
  have hFront := h.length_lines_front
  rw [h.lines, show number - 1 = (Text.lines front).length by omega,
    List.set_append_right _ _ (Nat.le_refl _), Nat.sub_self, List.set_cons_zero]

/-- The lines of a text when something is written in place of a line: in between come the lines of
what was written, however many there are. -/
theorem IsLineAt.lines_splice (h : IsLineAt s number front line ending rest) (hNe : new ≠ [])
    (hBreak : new.getLast? ≠ some '\n') (hReturn : new.getLast? ≠ some '\r') :
    Text.lines (front ++ (new ++ ending ++ rest)) =
      Text.lines front ++ (Text.lines new ++ Text.lines rest) := by
  obtain ⟨whole, last, rfl, hWhole, hLast, hSome, hLines⟩ := exists_lines_concat hNe hBreak
  rw [List.getLast?_append_of_ne_nil _ hSome] at hReturn
  have hText : whole ++ last ++ ending ++ rest = whole ++ (last ++ ending ++ rest) := by simp
  rw [lines_append_of_isWhole h.whole, hText, lines_append_of_isWhole hWhole,
    (h.ends.of_ends hSome hReturn).lines hLast, hLines, List.append_assoc, List.singleton_append]

end Cut

end YamlIndex.Text
