import TurnScript.Number.Binary64
import TurnScript.Text.Numeral

/-!
# Decimals by way of 64 significant bits

A cell reads a decimal in two roundings: first to a significand of 64 bits, in which it is also
scaled by a power of ten, and then to a binary fraction of 64 bits. Digits beyond the room of the
significand are dropped, and so the value read may differ from the nearest one in its last bit.

The power of ten is itself made by repeated squaring, each product rounded.
-/

namespace TurnScript

/-- A positive value or zero with at most 64 significant bits: `significand * 2 ^ exponent`. -/
structure Extended where
  significand : Nat
  exponent : Int
  deriving Repr, DecidableEq, Inhabited

namespace Extended

/-- Significands stay below this number: two to the power 64. -/
def significandLimit : Nat := 18446744073709551616

/-- Half of the limit of significands. -/
def fullSignificand : Nat := 9223372036854775808

/-- The value of 64 significant bits nearest to `num / den`, a tie going to the even one. -/
def ofRatio (num den : Nat) : Extended :=
  if num = 0 then ⟨0, 0⟩
  else
    let exponent := Binary64.floorLog num den - 63
    let significand := Binary64.roundHalfEven (num * Nat.pow 2 (-exponent).toNat)
      (den * Nat.pow 2 exponent.toNat)
    if significand = significandLimit then ⟨fullSignificand, exponent + 1⟩
    else ⟨significand, exponent⟩

/-- Numerator and denominator. -/
def ratio (x : Extended) : Nat × Nat :=
  Binary64.ratio x.significand x.exponent

/-- A product, rounded once. -/
def times (x y : Extended) : Extended :=
  ofRatio (x.ratio.1 * y.ratio.1) (x.ratio.2 * y.ratio.2)

/-- A quotient by a positive value, rounded once. -/
def dividedBy (x y : Extended) : Extended :=
  ofRatio (x.ratio.1 * y.ratio.2) (x.ratio.2 * y.ratio.1)

/-- A sum, rounded once. -/
def plus (x y : Extended) : Extended :=
  ofRatio (x.ratio.1 * y.ratio.2 + y.ratio.1 * x.ratio.2) (x.ratio.2 * y.ratio.2)

/-- Whether a value is at least another. -/
def reaches (x y : Extended) : Bool :=
  y.ratio.1 * x.ratio.2 ≤ x.ratio.1 * y.ratio.2

/-- A whole number, rounded once. -/
def ofNat (n : Nat) : Extended :=
  ofRatio n 1

/-- The greatest whole number that is not above a value. -/
def whole (x : Extended) : Nat :=
  x.ratio.1 / x.ratio.2

/-- What a value has beyond its whole number. -/
def fraction (x : Extended) : Extended :=
  ofRatio (x.ratio.1 % x.ratio.2) x.ratio.2

/-- A value times a power of another, by repeated squaring. -/
def timesPower (x base : Extended) (power : Nat) : Extended :=
  let x := if power % 2 = 1 then x.times base else x
  if power < 2 then x else timesPower x (base.times base) (power / 2)
termination_by power

/-- A power of ten. -/
def powerOfTen (power : Nat) : Extended :=
  timesPower (ofNat 1) (ofNat 10) power

/-- The binary fraction nearest to a value. -/
def round (x : Extended) (negative : Bool) : Binary64 :=
  Binary64.ofRatio negative x.ratio.1 x.ratio.2

end Extended

namespace Binary64

/-- The greatest power of ten that one scaling goes by. -/
def greatestScale : Nat := 307

/-- Decimals whose power of ten is this far out are zero or infinite. -/
def scaleLimit : Nat := 342

/-- The power of ten that a second scaling goes by, as a binary fraction: a whole number. -/
def secondScale : Nat :=
  ((ofDecimal false 1 (greatestScale + 1)).toInt?.getD 1).toNat

/-- A whole number times a power of ten. -/
def scaleUp (negative : Bool) (significand power : Nat) : Binary64 :=
  let scaled (power : Nat) :=
    ((Extended.ofNat significand).times (Extended.powerOfTen power)).round negative
  if power = 0 then ofRatio negative significand 1
  else if power ≤ greatestScale then scaled power
  else if power < scaleLimit then (scaled (power - greatestScale - 1)).scale secondScale
  else infinite negative

/-- A whole number divided by a power of ten. -/
def scaleDown (negative : Bool) (significand power : Nat) : Binary64 :=
  let scaled (power : Nat) :=
    ((Extended.ofNat significand).dividedBy (Extended.powerOfTen power)).round negative
  if power = 0 then ofRatio negative significand 1
  else if power ≤ greatestScale then scaled power
  else if power < scaleLimit then (scaled (power - greatestScale - 1)).shrink secondScale
  else ofRatio negative 0 1

/-- Significands below this number have room for one more digit. -/
def digitRoom : Nat := 922337203685477579

/-- Significands below this number have room for one more zero. -/
def zeroRoom : Nat := 922337203685477580

/-- Move zeros from a power of ten into the significand while there is room. -/
def absorbZeros : Nat → Nat → Nat × Nat
  | significand, 0 => (significand, 0)
  | significand, power + 1 =>
    if significand < zeroRoom then absorbZeros (significand * 10) power
    else (significand, power + 1)

/-- Cancel closing zeros of the significand against a divisor. -/
def cancelZeros : Nat → Nat → Nat × Nat
  | significand, 0 => (significand, 0)
  | significand, power + 1 =>
    if significand % 10 = 0 then cancelZeros (significand / 10) power
    else (significand, power + 1)

/-- The significand of the digits before a point, and how many more digits follow for which there
is no room. -/
def wholeDigits : Nat → List Char → Nat × Nat
  | significand, [] => (significand, 0)
  | significand, c :: rest =>
    let significand := significand * 10 + (Text.digitValue? c).getD 0
    if significand < digitRoom then wholeDigits significand rest
    else (significand, rest.length)

/-- The significand with the digits after a point, and how many of them there was room for. -/
def decimalDigits : Nat → List Char → Nat × Nat
  | significand, [] => (significand, 0)
  | significand, c :: rest =>
    if significand < digitRoom then
      let (significand, taken) :=
        decimalDigits (significand * 10 + (Text.digitValue? c).getD 0) rest
      (significand, taken + 1)
    else (significand, 0)

/-- A power that is written with more than five digits counts as this one. -/
def farPower : Int := 10000

/-- A written power of ten as it is taken. -/
def takenPower (power : Int) : Int :=
  if power.natAbs < 100000 then power else if power < 0 then -farPower else farPower

/-- The value that a cell reads from the digits before and after a point and a power of ten. -/
def approximate (negative : Bool) (digits decimals : List Char) (power : Int) : Binary64 :=
  let (significand, dropped) := wholeDigits 0 digits
  let (significand, taken) := decimalDigits significand decimals
  let power := takenPower power + dropped - taken
  if significand = 0 then ofRatio negative 0 1
  else if 0 ≤ power then
    let (significand, power) := absorbZeros significand power.toNat
    scaleUp negative significand power
  else
    let (significand, power) := cancelZeros significand (-power).toNat
    scaleDown negative significand power

end Binary64
end TurnScript
