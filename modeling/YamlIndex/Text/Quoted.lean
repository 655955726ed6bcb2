import YamlIndex.Text.CharacterTables
import YamlIndex.Text.Number

/-!
# Quoted text in messages

A message shows a piece of user text between double quotes, so that blanks, line ends and invisible
characters can be told apart.  A backslash, a double quote and the common controls have short
escapes; other characters that would not show, or would merge with the one before them, are given by
number.
-/

namespace YamlIndex.Text

/-- Whether a character cannot be shown as itself. -/
def needsNumber (c : Char) : Bool :=
  if 0x20 ≤ c.toNat && c.toNat < 0x7f then false
  else hiddenRanges.has c.toNat || extendingRanges.has c.toNat

/-- A character given by its number. -/
def numbered (c : Char) : List Char :=
  ['\\', 'u', '\x7b'] ++ hexDigits c.toNat ++ ['\x7d']

/-- One character of a quoted text. -/
def escape (c : Char) : List Char :=
  match c with
  | '\x00' => ['\\', '0']
  | '\t' => ['\\', 't']
  | '\r' => ['\\', 'r']
  | '\n' => ['\\', 'n']
  | '"' => ['\\', '"']
  | '\\' => ['\\', '\\']
  | _ => if needsNumber c then numbered c else [c]

/-- The text in double quotes, with escapes. -/
def quoted (s : String) : String :=
  String.ofList (['"'] ++ s.toList.flatMap escape ++ ['"'])

end YamlIndex.Text
