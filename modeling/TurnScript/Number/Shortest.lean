import TurnScript.Number.Binary64

/-!
# Shortest decimals

A finite value is written with the fewest digits that read back as the same value, and of
the candidates with that many digits the nearest one. For each number of digits only the
two neighbours of the value on that decimal grid can qualify, and whether they read back is
tested by reading them.
-/

namespace TurnScript

/-- A decimal: `digits * 10 ^ exponent`. -/
structure Decimal where
  digits : Nat
  exponent : Int
  deriving Repr, DecidableEq, Inhabited

namespace Decimal

/-- Numerator and denominator of a decimal. -/
def ratio (d : Decimal) : Nat × Nat :=
  (d.digits * Nat.pow 10 d.exponent.toNat, Nat.pow 10 (-d.exponent).toNat)

/-- Exponent of the leading decimal digit of `num / den`, for a positive quotient. -/
def leadingExponent (num den : Nat) : Int :=
  if den ≤ num then (Binary64.decimalLength (num / den) : Int) - 1
  else
    let length := Binary64.decimalLength (den / num)
    if num * Nat.pow 10 (length - 1) = den then -(length - 1 : Nat) else -(length : Int)

/-- The neighbour below on the grid of `10 ^ step`. -/
def below (num den : Nat) (step : Int) : Decimal :=
  ⟨num * Nat.pow 10 (-step).toNat / (den * Nat.pow 10 step.toNat), step⟩

/-- The neighbour above on the same grid. -/
def above (d : Decimal) : Decimal :=
  ⟨d.digits + 1, d.exponent⟩

/-- Whether `num / den` lies nearer to a grid point than to the next one above; a tie goes to
the even digit. -/
def nearerBelow (num den : Nat) (d : Decimal) : Bool :=
  let scaled := num * Nat.pow 10 (-d.exponent).toNat
  let unit := den * Nat.pow 10 d.exponent.toNat
  let twice := 2 * (scaled - d.digits * unit)
  twice < unit || (twice == unit && d.digits % 2 == 0)

/-- Whether a decimal reads back as a value. -/
def readsAs (d : Decimal) (x : Binary64) : Bool :=
  Binary64.ofDecimal false d.digits d.exponent == x

/-- The candidate with a given number of digits, if one reads back. -/
def candidate (x : Binary64) (num den : Nat) (lead : Int) (length : Nat) : Option Decimal :=
  let low := below num den (lead - length + 1)
  let high := low.above
  match low.readsAs x, high.readsAs x with
  | true, true => some (if nearerBelow num den low then low else high)
  | true, false => some low
  | false, true => some high
  | false, false => none

/-- The whole decimal expansion of `significand * 2 ^ exponent`. -/
def exact (significand : Nat) (exponent : Int) : Decimal :=
  if 0 ≤ exponent then ⟨significand * Nat.pow 2 exponent.toNat, 0⟩
  else ⟨significand * Nat.pow 5 (-exponent).toNat, exponent⟩

/-- The shortest decimal of a positive magnitude. Seventeen digits always suffice; the whole
expansion stands behind them so that the function needs no proof of that. -/
def shortest (significand : Nat) (exponent : Int) : Decimal :=
  let (num, den) := Binary64.ratio significand exponent
  let lead := leadingExponent num den
  let x := Binary64.finite false significand exponent
  ((List.range 17).findSome? fun shorter => candidate x num den lead (shorter + 1)).getD
    (exact significand exponent)

/-- The digits without closing zeros, and the exponent raised to match. -/
def stripZeros (digits : List Char) (exponent : Int) : List Char × Int :=
  let kept := (digits.reverse.dropWhile (· == '0')).reverse
  (kept, exponent + (digits.length - kept.length : Nat))

end Decimal

/-- How a float is laid out: from which position of the point on an exponent is written. A
point position of `p` means that the value is `0.digits * 10 ^ p`. -/
structure FloatLayout where
  leastPoint : Int
  greatestPoint : Int
  exponentWidth : Nat
  /-- Whether a lone digit before an exponent has a point and a zero behind it. -/
  pointed : Bool

/-- Floats are written positionally from a ten-thousandth up to below ten to the sixteenth,
with at least one digit after the point, and with a signed exponent of two digits or more
elsewhere. -/
def FloatLayout.standard : FloatLayout := ⟨-3, 16, 2, false⟩

namespace FloatLayout

/-- Positional notation of digits with the point at a position. -/
def positional (digits : List Char) (point : Int) : List Char :=
  if point ≤ 0 then '0' :: '.' :: (List.replicate (-point).toNat '0' ++ digits)
  else if digits.length ≤ point.toNat then
    digits ++ List.replicate (point.toNat - digits.length) '0' ++ ['.', '0']
  else digits.take point.toNat ++ '.' :: digits.drop point.toNat

/-- Exponent notation: one digit before the point. -/
def scientific (layout : FloatLayout) (digits : List Char) (point : Int) : List Char :=
  let power := point - 1
  let figures := Nat.toDigits 10 power.natAbs
  let padded := List.replicate (layout.exponentWidth - figures.length) '0' ++ figures
  let fraction := match digits.drop 1 with
    | [] => if layout.pointed then ['.', '0'] else []
    | rest => '.' :: rest
  digits.take 1 ++ fraction ++ 'e' :: (if power < 0 then '-' else '+') :: padded

/-- Text of a positive decimal. -/
def write (layout : FloatLayout) (d : Decimal) : List Char :=
  let (digits, exponent) := Decimal.stripZeros (Nat.toDigits 10 d.digits) d.exponent
  let point := exponent + digits.length
  if layout.leastPoint ≤ point ∧ point ≤ layout.greatestPoint then positional digits point
  else layout.scientific digits point

end FloatLayout

/-- Text of a value. Zero keeps its sign, and the values that are no numbers have names. -/
def Binary64.text : Binary64 → String
  | finite negative significand exponent =>
    let body := if significand = 0 then ['0', '.', '0']
      else FloatLayout.standard.write (Decimal.shortest significand exponent)
    String.ofList (if negative then '-' :: body else body)
  | infinite negative => if negative then "-Infinity" else "Infinity"
  | nan => "NaN"

end TurnScript
