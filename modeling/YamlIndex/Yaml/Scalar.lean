import YamlIndex.Decimal.Shortest
import YamlIndex.Text.Number
import YamlIndex.Yaml.Token

/-!
# What plain scalars mean

A plain scalar is a null, a truth value, a number or else a text, by its spelling alone.  Integers
may be signed, and may have a base: `0x`, `0o` or `0b` behind the sign.  A decimal integer with a
zero in front of further digits is no number but a text.  An integer must fit 64 bits; one that
fits 128 is refused, and one beyond that is a floating-point number if it is decimal.  A number too
large for floating point is a text.
-/

namespace YamlIndex.Yaml

/-- A number of a document. -/
inductive Number where
  | natural (n : Nat)
  /-- The number `-(n + 1)`. -/
  | negative (n : Nat)
  | real (x : Decimal.Real)
  deriving DecidableEq, Repr

namespace Number

/-- Floating-point numbers have at most 16 digits before the point and 4 zeros behind it. -/
def layout : Decimal.Layout where
  maxWhole := 16
  maxZeros := 4

/-- The text of a number. -/
def text : Number → List Char
  | natural n => Nat.toDigits 10 n
  | negative n => '-' :: Nat.toDigits 10 (n + 1)
  | real (.finite false x) => layout.write x.shortest
  | real (.finite true x) => '-' :: layout.write x.shortest
  | real (.infinite false) => ['.', 'i', 'n', 'f']
  | real (.infinite true) => ['-', '.', 'i', 'n', 'f']
  | real .undefined => ['.', 'n', 'a', 'n']

/-- Whether two numbers are the same key; an integer never is the same as a floating-point number.
-/
def same : Number → Number → Bool
  | natural m, natural n => m == n
  | negative m, negative n => m == n
  | real x, real y => x.same y
  | _, _ => false

end Number

/-! ## Integers -/

/-- The value of a digit in a base. -/
def digitIn? (base : Nat) (c : Char) : Option Nat :=
  (Text.hexValue? c).bind fun n => if n < base then some n else none

/-- The value of a non-empty text of digits in a base. -/
def natIn? (base : Nat) (s : List Char) : Option Nat :=
  if s.isEmpty then none
  else s.foldlM (fun n c => (digitIn? base c).map fun d => base * n + d) 0

/-- The base that a text announces and its digits. -/
def basedDigits? : List Char → Option (Nat × List Char)
  | '0' :: 'x' :: digits => some (16, digits)
  | '0' :: 'o' :: digits => some (8, digits)
  | '0' :: 'b' :: digits => some (2, digits)
  | _ => none

/-- The text without one sign in front. -/
def unsigned : List Char → List Char
  | '+' :: rest => rest
  | '-' :: rest => rest
  | s => s

/-- Whether a text is made of digits with a needless zero in front. -/
def hasIdleZero (s : List Char) : Bool :=
  match unsigned s with
  | '0' :: d :: rest => (d :: rest).all Text.isDigit
  | _ => false

/-- Whether a text is made of so many digits that it is no number: without a needless zero it would
be too large even for floating point.  The count tells it before the number is worked out. -/
def hasTooManyDigits (s : List Char) : Bool :=
  400 < s.length && (unsigned s).all Text.isDigit

/-- The natural number that a text spells, perhaps with a plus sign. -/
def natural? (s : List Char) : Option Nat :=
  let digits := match s with
    | '+' :: rest => rest
    | _ => s
  match (basedDigits? digits).bind fun (base, digits) => natIn? base digits with
  | some n => some n
  | none => if hasIdleZero s then none else natIn? 10 digits

/-- The magnitude of the number that a text with a minus sign spells. -/
def negated? : List Char → Option Nat
  | '-' :: digits =>
    match (basedDigits? digits).bind fun (base, digits) => natIn? base digits with
    | some n => some n
    | none => if hasIdleZero ('-' :: digits) then none else natIn? 10 digits
  | _ => none

/-- What the reading of an integer comes to. -/
inductive IntegerReading where
  | number (n : Number)
  /-- An integer of more than 64 bits. -/
  | tooWide
  /-- No integer, or one of more than 128 bits. -/
  | notOne
  deriving DecidableEq, Repr

/-- Reads an integer. -/
def readInteger (s : List Char) : IntegerReading :=
  match natural? s, negated? s with
  | some n, _ =>
    if n < Nat.pow 2 64 then .number (.natural n)
    else if n < Nat.pow 2 128 then .tooWide
    else .notOne
  | none, some 0 => .number (.natural 0)
  | none, some (n + 1) =>
    if n < Nat.pow 2 63 then .number (.negative n)
    else if n < Nat.pow 2 127 then .tooWide
    else .notOne
  | none, none => .notOne

/-! ## Floating-point numbers -/

/-- The digits and the exponent of ten of a decimal number without a sign. -/
def decimal? (s : List Char) : Option (Nat × Int) := do
  let (whole, rest) := s.span Text.isDigit
  let (part, rest) := match rest with
    | '.' :: rest => rest.span Text.isDigit
    | _ => ([], rest)
  if whole.isEmpty && part.isEmpty then none
  else
    let digits := Text.natOf (whole ++ part)
    match rest with
    | [] => return (digits, -(part.length : Int))
    | c :: rest =>
      if c != 'e' && c != 'E' then none
      else
        let n ← natIn? 10 (unsigned rest)
        let exponent : Int := if rest.head? = some '-' then -(n : Int) else n
        return (digits, exponent - part.length)

/-- The finite floating-point number that a text spells. -/
def finite? (s : List Char) : Option Decimal.Real := do
  let (digits, exponent) ← decimal? (unsigned s)
  let magnitude ← Decimal.Binary.ofDecimal? digits exponent
  return .finite (s.head? == some '-') magnitude

/-- The floating-point number that a text spells. -/
def real? (s : List Char) : Option Decimal.Real :=
  let oneOf (names : List String) : Bool := names.any fun name => name.toList == s
  if oneOf [".inf", ".Inf", ".INF", "+.inf", "+.Inf", "+.INF"] then some (.infinite false)
  else if oneOf ["-.inf", "-.Inf", "-.INF"] then some (.infinite true)
  else if oneOf [".nan", ".NaN", ".NAN"] then some .undefined
  else finite? s

/-! ## Nulls and truth values -/

/-- Whether a text spells null. -/
def isNull (s : List Char) : Bool :=
  ["null", "Null", "NULL", "~"].any fun name => name.toList == s

/-- The truth value that a text spells. -/
def bool? (s : List Char) : Option Bool :=
  if ["true", "True", "TRUE"].any fun name => name.toList == s then some true
  else if ["false", "False", "FALSE"].any fun name => name.toList == s then some false
  else none

end YamlIndex.Yaml
