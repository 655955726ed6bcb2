import YamlIndex.Text.Blank

/-!
# Numbers in texts

Positions, limits and times are unsigned 64-bit words; they are written in plain ASCII digits.
-/

namespace YamlIndex.Text

/-- The largest word. -/
def maxWord : Nat := 0xffffffffffffffff

/-- Whether a character is one of the ten ASCII digits. -/
def isDigit (c : Char) : Bool :=
  '0' ≤ c && c ≤ '9'

/-- The value of an ASCII digit. -/
def digitValue (c : Char) : Nat :=
  c.toNat - '0'.toNat

/-- The number that a text of decimal digits denotes. -/
def natOf (digits : List Char) : Nat :=
  digits.foldl (fun n c => 10 * n + digitValue c) 0

/-- The word that a non-empty text of ASCII digits denotes; none if it is too large. -/
def word? (s : List Char) : Option Nat :=
  if !s.isEmpty && s.all isDigit && natOf s ≤ maxWord then some (natOf s) else none

/-- As `word?`, with one leading plus sign allowed. -/
def signedWord? (s : List Char) : Option Nat :=
  match s with
  | '+' :: rest => word? rest
  | _ => word? s

/-- The value of a hexadecimal digit of either case. -/
def hexValue? (c : Char) : Option Nat :=
  if isDigit c then some (digitValue c)
  else if 'a' ≤ c ∧ c ≤ 'f' then some (c.toNat - 'a'.toNat + 10)
  else if 'A' ≤ c ∧ c ≤ 'F' then some (c.toNat - 'A'.toNat + 10)
  else none

/-- The digits of a number in lower-case hexadecimal. -/
def hexDigits (n : Nat) : List Char :=
  Nat.toDigits 16 n

/-- The text of a number in decimal. -/
def decimal (n : Nat) : String :=
  String.ofList (Nat.toDigits 10 n)

end YamlIndex.Text
