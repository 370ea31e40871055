/-!
# Whole numbers of 64 bits

The bounds of the numbers that 64 bits hold with a sign.
-/

namespace TurnScript

/-- The least whole number of 64 bits: two to the power 63, negated. -/
def leastInt64 : Int := -9223372036854775808

/-- The greatest whole number of 64 bits: one less than two to the power 63. -/
def greatestInt64 : Int := 9223372036854775807

end TurnScript
