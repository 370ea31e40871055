/-!
# Binary fractions of 64 bits

A finite value is a significand times a power of two, with at most 53 bits and an exponent
between -1074 and 971; what lies above is infinite. Every operation here is exact
arithmetic on whole numbers followed by one rounding to the nearest representable value, a
tie going to the even significand, so nothing rests on the machine's own arithmetic.
-/

namespace TurnScript

/-- A binary floating-point value. A finite one is `significand * 2 ^ exponent`, with a sign
that zero has too. -/
inductive Binary64 where
  | finite (negative : Bool) (significand : Nat) (exponent : Int)
  | infinite (negative : Bool)
  | nan
  deriving Repr, DecidableEq, Inhabited

namespace Binary64

/-- The exponent of the finest representable step. -/
def leastExponent : Int := -1074

/-- The exponent of the coarsest representable step. -/
def greatestExponent : Int := 971

/-- Significands stay below this number: two to the power 53. -/
def significandLimit : Nat := 9007199254740992

/-- Half of the limit of significands: the least one with all bits in use. -/
def fullSignificand : Nat := 4503599627370496

/-- The one form in which rounding delivers a finite value: all 53 bits in use, or the
finest step. -/
def IsNormal : Binary64 → Prop
  | finite _ significand exponent =>
    significand < significandLimit ∧ leastExponent ≤ exponent ∧ exponent ≤ greatestExponent ∧
      (significand < fullSignificand → exponent = leastExponent)
  | infinite _ => True
  | nan => True

instance : DecidablePred IsNormal := fun x => by
  cases x <;> simp only [IsNormal] <;> infer_instance

/-- A quotient rounded to the nearest whole number, a tie to the even one. -/
def roundHalfEven (num den : Nat) : Nat :=
  let quotient := num / den
  let twice := 2 * (num % den)
  if twice < den then quotient
  else if den < twice then quotient + 1
  else quotient + quotient % 2

/-- The greatest `k` with `2 ^ k` at most `num / den`, for a positive quotient. -/
def floorLog (num den : Nat) : Int :=
  let estimate : Int := (Nat.log2 num : Int) - Nat.log2 den
  if den * Nat.pow 2 estimate.toNat ≤ num * Nat.pow 2 (-estimate).toNat then estimate
  else estimate - 1

/-- The representable value nearest to `num / den`. -/
def ofRatio (negative : Bool) (num den : Nat) : Binary64 :=
  if num = 0 then finite negative 0 leastExponent
  else
    let exponent := max (floorLog num den - 52) leastExponent
    let significand :=
      roundHalfEven (num * Nat.pow 2 (-exponent).toNat) (den * Nat.pow 2 exponent.toNat)
    let (significand, exponent) :=
      if significand = significandLimit then (fullSignificand, exponent + 1)
      else (significand, exponent)
    if greatestExponent < exponent then infinite negative
    else finite negative significand exponent

/-- Number of decimal digits of a positive number. -/
def decimalLength (n : Nat) : Nat :=
  (Nat.toDigits 10 n).length

/-- The representable value nearest to `digits * 10 ^ exponent`. Values beyond any
representable magnitude, or below half the finest step, are settled by their order of
magnitude alone, so that a text with a huge exponent costs nothing. -/
def ofDecimal (negative : Bool) (digits : Nat) (exponent : Int) : Binary64 :=
  if digits = 0 then ofRatio negative 0 1
  else if 400 < exponent + decimalLength digits then infinite negative
  else if exponent + decimalLength digits < -400 then ofRatio negative 0 1
  else ofRatio negative (digits * Nat.pow 10 exponent.toNat) (Nat.pow 10 (-exponent).toNat)

/-- Numerator and denominator of a finite magnitude. -/
def ratio (significand : Nat) (exponent : Int) : Nat × Nat :=
  (significand * Nat.pow 2 exponent.toNat, Nat.pow 2 (-exponent).toNat)

/-- The whole number that a value is, if it is one. -/
def toInt? : Binary64 → Option Int
  | finite negative significand exponent =>
    let (num, den) := ratio significand exponent
    if num % den = 0 then some (if negative then -Int.ofNat (num / den) else Int.ofNat (num / den))
    else none
  | infinite _ => none
  | nan => none

/-- A value times a whole number, rounded once. -/
def scale (x : Binary64) (factor : Nat) : Binary64 :=
  match x with
  | finite negative significand exponent =>
    let (num, den) := ratio significand exponent
    ofRatio negative (num * factor) den
  | infinite negative => if factor = 0 then nan else infinite negative
  | nan => nan

/-- A value divided by a positive whole number, rounded once. -/
def shrink (x : Binary64) (divisor : Nat) : Binary64 :=
  match x with
  | finite negative significand exponent =>
    let (num, den) := ratio significand exponent
    ofRatio negative num (den * divisor)
  | infinite negative => infinite negative
  | nan => nan

/-- Quotient of two whole numbers with a positive divisor, rounded once; nothing when the
quotient is beyond the greatest finite value. -/
def quotient? (num : Int) (den : Nat) : Option Binary64 :=
  match ofRatio (num < 0) num.natAbs den with
  | infinite _ => none
  | value => some value

/-- How a value lies to a whole number; nothing for a value that is not a number. -/
def compareInt (x : Binary64) (n : Int) : Option Ordering :=
  match x with
  | finite negative significand exponent =>
    let (num, den) := ratio significand exponent
    let signed : Int := if negative then -Int.ofNat num else Int.ofNat num
    some (compare signed (n * den))
  | infinite negative => some (if negative then .lt else .gt)
  | nan => none

end Binary64
end TurnScript
