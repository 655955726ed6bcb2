/-!
# Binary floating-point numbers

A finite number is a sign, a significand below 2^53 and an exponent of two from -1074 on; the
significand is at least 2^52 unless the exponent is the least one.  A decimal number is rounded to
the nearest of these, a tie going to the even significand, in exact arithmetic on natural numbers.

Zero keeps its sign.  Numbers compare as the reals they are, so the two zeros are equal.
-/

namespace YamlIndex.Decimal

/-- The magnitude of a finite number: `significand` times two to the power `exponent`. -/
structure Binary where
  significand : Nat
  exponent : Int
  deriving DecidableEq, Repr

namespace Binary

/-- The least exponent of two. -/
def minExponent : Int := -1074

/-- The greatest exponent of two. -/
def maxExponent : Int := 971

/-- The significand below which the exponent is the least one. -/
def hidden : Nat := Nat.pow 2 52

/-- A quotient rounded to the nearest natural number, a tie to the even one. -/
def roundDiv (n d : Nat) : Nat :=
  let q := n / d
  let r := n % d
  if 2 * r < d then q
  else if d < 2 * r then q + 1
  else if q % 2 = 0 then q else q + 1

/-- A fraction times a power of two, as a fraction. -/
def shift (n d : Nat) (e : Int) : Nat × Nat :=
  if 0 ≤ e then (n * Nat.pow 2 e.toNat, d) else (n, d * Nat.pow 2 (-e).toNat)

/-- The positive fraction rounded; none when it is too large. -/
def ofFraction? (n d : Nat) : Option Binary :=
  let estimate : Int := (n.log2 : Int) - d.log2 - 52
  let round (e : Int) : Nat :=
    let (n, d) := shift n d (-e)
    roundDiv n d
  -- The estimate is exact or one too large, and never below the least exponent.
  let lower := max (estimate - 1) minExponent
  let exponent := if round lower < 2 * hidden then lower else max estimate minExponent
  let significand := round exponent
  let (significand, exponent) :=
    if significand = 2 * hidden then (hidden, exponent + 1) else (significand, exponent)
  if exponent ≤ maxExponent then some ⟨significand, exponent⟩ else none

/-- The magnitude of `digits` times ten to the power `exponent`, rounded; none when it is too
large. -/
def ofDecimal? (digits : Nat) (exponent : Int) : Option Binary :=
  if digits = 0 then some ⟨0, minExponent⟩
  else if 400 < exponent + (digits.log2 : Int) / 4 then none
  else if exponent + (digits.log2 : Int) < -400 then some ⟨0, minExponent⟩
  else if 0 ≤ exponent then ofFraction? (digits * Nat.pow 10 exponent.toNat) 1
  else ofFraction? digits (Nat.pow 10 (-exponent).toNat)

end Binary

/-- A number as arithmetic knows it: finite, infinite or none at all. -/
inductive Real where
  | finite (negative : Bool) (magnitude : Binary)
  | infinite (negative : Bool)
  | undefined
  deriving DecidableEq, Repr

/-- Whether two numbers are the same, where zeros are and undefined ones are too. -/
def Real.same : Real → Real → Bool
  | .finite s m, .finite t n => m == n && (s == t || m.significand == 0)
  | .infinite s, .infinite t => s == t
  | .undefined, .undefined => true
  | _, _ => false

end YamlIndex.Decimal
