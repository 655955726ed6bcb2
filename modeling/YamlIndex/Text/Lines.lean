import YamlIndex.Text.Blank

/-!
# Lines of a text

A text is cut into *pieces*: maximal runs that end in a line feed, the last one perhaps without.
Nothing is lost in the cut, so a piece can be exchanged and the rest of the text put back byte for
byte.  A *line* is the body of a piece: the piece less its terminator, which is a line feed or a
carriage return and a line feed.  A carriage return elsewhere belongs to the line.

## Main results

* `flatten_pieces`: the pieces append to the text.
* `body_append_terminator`: a piece is its body followed by its terminator.
* `replaceBody_isSome_iff`: exactly the lines of a text can be replaced.
-/

namespace YamlIndex.Text

/-- The text cut after every line feed. -/
def pieces (s : List Char) : List (List Char) :=
  s.foldr
    (fun c rest =>
      if c = '\n' then [c] :: rest
      else match rest with
        | [] => [[c]]
        | piece :: others => (c :: piece) :: others)
    []

theorem flatten_pieces (s : List Char) : (pieces s).flatten = s := by
  induction s with
  | nil => rfl
  | cons c s ih =>
    simp only [pieces, List.foldr_cons] at ih ⊢
    generalize s.foldr _ [] = rest at ih
    subst ih
    by_cases h : c = '\n'
    · simp [h]
    · cases rest <;> simp [h]

/-! ## Bodies and terminators -/

/-- What ends a piece: a line feed, a carriage return and a line feed, or nothing. -/
def terminator (piece : List Char) : List Char :=
  match piece.reverse with
  | '\n' :: '\r' :: _ => ['\r', '\n']
  | '\n' :: _ => ['\n']
  | _ => []

/-- The piece without its terminator. -/
def body (piece : List Char) : List Char :=
  piece.take (piece.length - (terminator piece).length)

theorem body_append_terminator (piece : List Char) : body piece ++ terminator piece = piece := by
  obtain ⟨r, rfl⟩ : ∃ r : List Char, piece = r.reverse := ⟨piece.reverse, by simp⟩
  unfold body terminator
  split <;> rename_i h <;> simp only [List.reverse_reverse] at h
  · subst h
    simp
  · subst h
    simp
  · rw [List.length_nil, Nat.sub_zero, List.take_length, List.append_nil]

/-- The lines of a text. -/
def lines (s : List Char) : List (List Char) :=
  (pieces s).map body

/-- The lines of a string. -/
def linesOf (s : String) : List String :=
  (lines s.toList).map String.ofList

/-- The text with another body for the piece of the given number, counted from one; none when there
is no such piece.  The terminator stays. -/
def replaceBody (number : Nat) (new s : List Char) : Option (List Char) :=
  match number with
  | 0 => none
  | n + 1 =>
    if n < (pieces s).length then
      some ((pieces s).modify n fun piece => new ++ terminator piece).flatten
    else none

/-- The given lines as one text, with a line feed between neighbours. -/
def joinLines (lines : List String) : String :=
  String.intercalate "\n" lines

theorem replaceBody_isSome_iff (number : Nat) (new s : List Char) :
    (replaceBody number new s).isSome ↔ 1 ≤ number ∧ number ≤ (lines s).length := by
  cases number with
  | zero => simp [replaceBody]
  | succ n =>
    have hCount : (lines s).length = (pieces s).length := by simp [lines]
    by_cases h : n < (pieces s).length
    · exact iff_of_true (by simp [replaceBody, h]) (by omega)
    · exact iff_of_false (by simp [replaceBody, h]) (by omega)

end YamlIndex.Text
