import TurnScript.Number.Extended
import TurnScript.Number.Shortest

/-!
# Numbers in a column of texts

A column of texts keeps a number as the text of its first fifteen digits. The number is brought
between one and ten, half a unit of the last digit is added, and the digits are taken off the
front one after the other. All of this is done with 64 significant bits, and every step is rounded
to them. So the last digit may differ from that of the nearest decimal.
-/

namespace TurnScript

namespace Extended

/-- The value of a magnitude, which has no more significant bits than there is room for. -/
def ofMagnitude (significand : Nat) (exponent : Int) : Extended :=
  ofRatio (Binary64.ratio significand exponent).1 (Binary64.ratio significand exponent).2

/-- The nearest binary fraction to a decimal, as a value. -/
def ofDecimal (digits : Nat) (exponent : Int) : Extended :=
  match Binary64.ofDecimal false digits exponent with
  | .finite _ significand exponent => ofMagnitude significand exponent
  | _ => ofNat 0

/-- A scale made greater by powers of ten, while a value reaches the next one; `power` counts
them. -/
def climb (x : Extended) (step : Nat) : Nat → Extended × Int → Extended × Int
  | 0, scale => scale
  | fuel + 1, (scale, power) =>
    let next := (ofDecimal 1 step).times scale
    if x.reaches next then climb x step fuel (next, power + step) else (scale, power)

/-- A value made greater by powers of ten, while it does not reach a bound. -/
def raise (bound : Extended) (step : Nat) : Nat → Extended × Int → Extended × Int
  | 0, x => x
  | fuel + 1, (x, power) =>
    if x.reaches bound then (x, power)
    else raise bound step fuel (x.times (ofDecimal 1 step), power - step)

/-- Steps by powers of ten that are enough to bring any binary fraction between one and ten. -/
def scalingFuel : Nat := 50

/-- A positive value brought between one and ten, and the power of ten that it was divided by. -/
def normalized (x : Extended) : Extended × Int :=
  let (scale, power) := climb x 1 scalingFuel (climb x 10 scalingFuel
    (climb x 100 scalingFuel (ofNat 1, 0)))
  raise (ofNat 1) 1 scalingFuel
    (raise (ofDecimal 1 (-8)) 8 scalingFuel (x.dividedBy scale, power))

/-- The number that so many digits make, taken off the front of a value below ten. -/
def digitsOf : Nat → Extended → Nat → Nat
  | 0, _, number => number
  | count + 1, x, number =>
    digitsOf count (x.fraction.times (ofNat 10)) (number * 10 + x.whole)

end Extended

/-- How many digits of a number a column of texts keeps. -/
def columnDigits : Nat := 15

/-- Half a unit of the last digit that is kept. -/
def columnHalf : Extended :=
  (Extended.ofDecimal 5 (-5)).times (Extended.ofDecimal 1 (-10))

/-- The decimal that a column of texts keeps of a positive value. -/
def Extended.columnDecimal (x : Extended) : Decimal :=
  let (x, power) := x.normalized
  let x := x.plus columnHalf
  let (x, power) :=
    if x.reaches (ofNat 10) then (x.times (ofDecimal 1 (-1)), power + 1) else (x, power)
  ⟨digitsOf columnDigits x 0, power - (columnDigits - 1 : Nat)⟩

/-- In a column of texts, floats of fifteen digits or fewer are positional, and every float has a
point. -/
def FloatLayout.column : FloatLayout := ⟨-3, 15, 2, true⟩

/-- Text of a value in a column of texts. Zero has no sign. -/
def Binary64.columnText : Binary64 → String
  | finite negative significand exponent =>
    if significand = 0 then "0.0"
    else
      let body := FloatLayout.column.write (Extended.ofMagnitude significand exponent).columnDecimal
      String.ofList (if negative then '-' :: body else body)
  | infinite negative => if negative then "-Inf" else "Inf"
  | nan => "NaN"

end TurnScript
