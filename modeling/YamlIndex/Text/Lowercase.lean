import YamlIndex.Text.CharacterTables

/-!
# Lower case

Searches that ignore case compare lower-case forms.  Nearly every character has a form of its own;
two need more.  A capital I with a dot above becomes two characters.  A capital sigma becomes a
final sigma at the end of a word and a plain one elsewhere, where a word ends if a cased character
comes before (skipping what case ignores) and none comes after.
-/

namespace YamlIndex.Text

/-- The lower-case form of a character by the table; the character itself if it has none. -/
def lowerByTable (c : Char) : Char :=
  let n := c.toNat
  match lowerRuns.find? fun run => run.low ≤ n && n ≤ run.high && (n - run.low) % run.step == 0 with
  | some run => Char.ofNat ((n : Int) + run.shift).toNat
  | none => c

/-- The lower-case form of a character, its surroundings aside. -/
def lowerChar (c : Char) : List Char :=
  if c.toNat < 0x80 then [c.toLower]
  else if c.toNat = 0x130 then ['i', Char.ofNat 0x307]
  else [lowerByTable c]

/-- The Greek capital sigma. -/
def capitalSigma : Char := Char.ofNat 0x3a3

/-- Whether, going along a text, the first character that case does not ignore is cased. -/
def leadsToCased (s : List Char) : Bool :=
  match s.dropWhile fun c => caseIgnorableRanges.has c.toNat with
  | [] => false
  | c :: _ => casedRanges.has c.toNat

/-- The lower-case form of a text that stands after `before`, given in reverse. -/
def lowerAfter (before : List Char) : List Char → List Char
  | [] => []
  | c :: rest =>
    (if c = capitalSigma then
      [Char.ofNat (if leadsToCased before && !leadsToCased rest then 0x3c2 else 0x3c3)]
    else lowerChar c) ++ lowerAfter (c :: before) rest

/-- The lower-case form of a text. -/
def lower (s : List Char) : List Char :=
  if s.contains capitalSigma then lowerAfter [] s else s.flatMap lowerChar

/-- The lower-case form of a string. -/
def lowered (s : String) : String :=
  String.ofList (lower s.toList)

/-- The string with its ASCII capitals in lower case and all else as it is. -/
def asciiLowered (s : String) : String :=
  String.ofList (s.toList.map Char.toLower)

end YamlIndex.Text
