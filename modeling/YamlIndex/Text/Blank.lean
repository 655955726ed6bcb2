/-!
# Blank characters

Indentation, trimming and the recognition of empty lines all rest on one class of characters: those
with the Unicode property `White_Space`.  The class is wider than the ASCII one (a no-break space or
an ideographic space indents a line) and narrower than "invisible" (a zero-width space is text).

Text is handled as a list of characters, so that a column is a length and a cut is an append.

## Main results

* `isBlank_of_isWhitespace`: every ASCII blank is blank here.
* `takeWhile_append_trimStart`: a line is its indentation followed by what trimming leaves.
-/

namespace YamlIndex.Text

/-- Whether a character has the Unicode property `White_Space`. -/
def isBlank (c : Char) : Bool :=
  let n := c.toNat
  (0x9 ≤ n && n ≤ 0xd) || n == 0x20 || n == 0x85 || n == 0xa0 || n == 0x1680 ||
    (0x2000 ≤ n && n ≤ 0x200a) || n == 0x2028 || n == 0x2029 || n == 0x202f || n == 0x205f ||
    n == 0x3000

theorem isBlank_of_isWhitespace {c : Char} (h : c.isWhitespace = true) : isBlank c = true := by
  simp only [Char.isWhitespace, Bool.or_eq_true, decide_eq_true_eq] at h
  rcases h with ((h | h) | h) | h <;> subst h <;> decide

/-! ## Trimming -/

/-- The text without its leading blanks. -/
def trimStart (s : List Char) : List Char :=
  s.dropWhile isBlank

/-- The text without its trailing blanks. -/
def trimEnd (s : List Char) : List Char :=
  (s.reverse.dropWhile isBlank).reverse

/-- The text without the blanks at either end. -/
def trim (s : List Char) : List Char :=
  trimEnd (trimStart s)

/-- The text without any leading or trailing characters of the given kind. -/
def stripBoth (p : Char → Bool) (s : List Char) : List Char :=
  ((s.dropWhile p).reverse.dropWhile p).reverse

/-- The string without the blanks at either end. -/
def trimmed (s : String) : String :=
  String.ofList (trim s.toList)

theorem takeWhile_append_trimStart (s : List Char) : s.takeWhile isBlank ++ trimStart s = s := by
  simp [trimStart]

/-! ## Splitting at a character -/

/-- The text before and after the first occurrence of a character, if it occurs. -/
def splitFirst (c : Char) : List Char → Option (List Char × List Char)
  | [] => none
  | d :: rest =>
    if d = c then some ([], rest)
    else (splitFirst c rest).map fun (before, after) => (d :: before, after)

/-- The pieces between the occurrences of a character; one more than there are occurrences. -/
def splitAll (c : Char) (s : List Char) : List (List Char) :=
  s.foldr
    (fun d pieces =>
      if d = c then [] :: pieces
      else match pieces with
        | [] => [[d]]
        | piece :: others => (d :: piece) :: others)
    [[]]

theorem splitAll_ne_nil (c : Char) (s : List Char) : splitAll c s ≠ [] := by
  cases s with
  | nil => simp [splitAll]
  | cons d rest =>
    simp only [splitAll, List.foldr_cons]
    split
    · simp
    · split <;> simp

end YamlIndex.Text
