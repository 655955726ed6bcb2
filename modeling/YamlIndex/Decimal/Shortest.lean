import YamlIndex.Decimal.Binary

/-!
# The shortest decimal text of a number

Among the decimal numbers that round to a given binary one, those with the fewest digits are taken,
and of these the nearest.  On the grid of numbers with a fixed count of digits, only the two
neighbours of the value can be nearest, so the search tries both for one digit, then for two, and
so on; 17 digits always suffice.

Point and exponent are set by `Layout`: positional notation while the point stands close to the
digits, an exponent of ten otherwise.
-/

namespace YamlIndex.Decimal

/-- Decimal digits, as a number, and the exponent of ten of the last one. -/
structure Digits where
  digits : Nat
  exponent : Int
  deriving DecidableEq, Repr

/-- The digits without the zeros at their end.  The first argument bounds their number. -/
def stripZeros : Nat → Digits → Digits
  | 0, d => d
  | n + 1, d =>
    if d.digits != 0 && d.digits % 10 == 0 then stripZeros n ⟨d.digits / 10, d.exponent + 1⟩ else d

namespace Binary

/-- The numbers that round to a magnitude lie between two fractions over a common denominator. -/
structure Interval where
  low : Nat
  value : Nat
  high : Nat
  denominator : Nat
  /-- Whether the ends round to the magnitude too. -/
  closed : Bool

/-- The interval of the numbers that round to a magnitude other than zero. -/
def interval (b : Binary) : Interval :=
  let m := b.significand
  -- The gap below a power of two is half as wide.
  let low := if m = hidden ∧ minExponent < b.exponent then 4 * m - 1 else 4 * m - 2
  let scale (n : Nat) := if 0 ≤ b.exponent then n * Nat.pow 2 b.exponent.toNat else n
  { low := scale low, value := scale (4 * m), high := scale (4 * m + 2)
    denominator := if 0 ≤ b.exponent then 4 else 4 * Nat.pow 2 (-b.exponent).toNat
    closed := m % 2 = 0 }

/-- Whether `q` units of the given fraction lie in the interval. -/
def Interval.has (i : Interval) (q unit unitDenominator : Nat) : Bool :=
  let x := q * unit * i.denominator
  let low := i.low * unitDenominator
  let high := i.high * unitDenominator
  if i.closed then low ≤ x && x ≤ high else low < x && x < high

/-- The number of digits of the whole part of a fraction of at least one, less one; for a smaller
one, how far its first digit is behind the point, negated. -/
def leadingExponent (n d : Nat) : Int :=
  let estimate := ((Nat.toDigits 10 n).length : Int) - (Nat.toDigits 10 d).length
  let atLeast (e : Int) : Bool :=
    if 0 ≤ e then d * Nat.pow 10 e.toNat ≤ n else d ≤ n * Nat.pow 10 (-e).toNat
  if atLeast estimate then estimate else estimate - 1

/-- The nearest number of `count` digits that rounds to the magnitude, if there is one. -/
def ofCount? (i : Interval) (lead : Int) (count : Nat) : Option Digits :=
  let exponent := lead - (count : Int) + 1
  let unit := if 0 ≤ exponent then Nat.pow 10 exponent.toNat else 1
  let unitDenominator := if 0 ≤ exponent then 1 else Nat.pow 10 (-exponent).toNat
  let n := i.value * unitDenominator
  let d := i.denominator * unit
  let q := n / d
  let below := i.has q unit unitDenominator
  let above := i.has (q + 1) unit unitDenominator
  if below && above then some ⟨roundDiv n d, exponent⟩
  else if below then some ⟨q, exponent⟩
  else if above then some ⟨q + 1, exponent⟩
  else none

/-- The shortest digits that round to the magnitude. -/
def shortest (b : Binary) : Digits :=
  if b.significand = 0 then ⟨0, 0⟩
  else
    let i := b.interval
    let lead := leadingExponent i.value i.denominator
    match (List.range 17).findSome? fun k => ofCount? i lead (k + 1) with
    | some d => stripZeros 20 d
    | none => ⟨0, 0⟩

end Binary

/-! ## Layout -/

/-- Where the point goes and when an exponent of ten is written. -/
structure Layout where
  /-- The number of digits before the point from which an exponent is written. -/
  maxWhole : Int
  /-- The number of zeros between the point and the first digit up to which none is. -/
  maxZeros : Int

/-- Digits with a point among, before or behind them, or with an exponent. -/
def Layout.write (layout : Layout) (d : Digits) : List Char :=
  let cs := Nat.toDigits 10 d.digits
  let whole := (cs.length : Int) + d.exponent
  if 0 ≤ d.exponent ∧ whole ≤ layout.maxWhole then
    cs ++ List.replicate d.exponent.toNat '0' ++ ['.', '0']
  else if 0 < whole ∧ whole ≤ layout.maxWhole then
    cs.take whole.toNat ++ ['.'] ++ cs.drop whole.toNat
  else if -layout.maxZeros ≤ whole ∧ whole ≤ 0 then
    ['0', '.'] ++ List.replicate (-whole).toNat '0' ++ cs
  else
    let exponent := (toString (whole - 1)).toList
    match cs with
    | [c] => [c, 'e'] ++ exponent
    | c :: rest => c :: '.' :: rest ++ ['e'] ++ exponent
    | [] => []

end YamlIndex.Decimal
