import Mathlib.Algebra.Order.Field.Power
import Mathlib.Data.Int.Log
import Mathlib.Data.Rat.Cast.Order
import Mathlib.Data.Rat.Floor
import Mathlib.Tactic.FieldSimp
import Mathlib.Tactic.Linarith
import Mathlib.Tactic.NormNum
import Mathlib.Tactic.Positivity
import Mathlib.Tactic.Ring
import TurnScript.Number.Binary64

/-!
# Rounding to binary fractions

Rounding works on a numerator and a denominator, but what it delivers depends on their quotient
alone. It delivers a normal form, and it leaves a value that has one as it is. These are the facts
about arithmetic that reading and writing of floats rest on.
-/

namespace TurnScript.Binary64

/-! ## Quotients and powers -/

/-- A quotient with a power of a base moved to the side on which its exponent is not negative. -/
theorem cast_scaled_div (base num den : Nat) (positive : 0 < base) (power : Int) :
    ((num * base ^ (-power).toNat : Nat) : ℚ) / ((den * base ^ power.toNat : Nat) : ℚ) =
      (num : ℚ) / den * (base : ℚ) ^ (-power) := by
  have nonzero : (base : ℚ) ≠ 0 := by exact_mod_cast positive.ne'
  rcases Int.eq_nat_or_neg power with ⟨n, rfl | rfl⟩
  · simp only [Int.toNat_neg_natCast, Int.toNat_natCast, pow_zero, mul_one, zpow_neg, zpow_natCast]
    push_cast
    field_simp
  · simp only [neg_neg, Int.toNat_neg_natCast, Int.toNat_natCast, pow_zero, mul_one, zpow_natCast]
    push_cast
    field_simp

/-- What a significand and an exponent stand for. -/
theorem cast_ratio (significand : Nat) (exponent : Int) :
    ((ratio significand exponent).1 : ℚ) / (ratio significand exponent).2 =
      significand * (2 : ℚ) ^ exponent := by
  have scaled := cast_scaled_div 2 significand 1 (by decide) (-exponent)
  simpa [ratio, Nat.pow_eq] using scaled

theorem ratio_den_pos (significand : Nat) (exponent : Int) :
    0 < (ratio significand exponent).2 :=
  Nat.pow_pos (by decide : 0 < 2)

/-- What is rounded at an exponent, as a quotient of whole numbers. -/
def scaledNum (num : Nat) (exponent : Int) : Nat := num * 2 ^ (-exponent).toNat

/-- The denominator of what is rounded at an exponent. -/
def scaledDen (den : Nat) (exponent : Int) : Nat := den * 2 ^ exponent.toNat

theorem scaledDen_pos {den : Nat} (denPos : 0 < den) (exponent : Int) :
    0 < scaledDen den exponent :=
  Nat.mul_pos denPos (Nat.pow_pos (by decide : 0 < 2))

/-- A quotient at an exponent is compared with a whole number as the quotient itself is with the
whole number times the power of two. -/
theorem scaledNum_le_iff {num den : Nat} (denPos : 0 < den) (exponent : Int) (bound : Nat) :
    scaledNum num exponent ≤ bound * scaledDen den exponent ↔
      (num : ℚ) / den ≤ bound * (2 : ℚ) ^ exponent := by
  have scaled := cast_scaled_div 2 num den (by decide) exponent
  have denScaled : (0 : ℚ) < (scaledDen den exponent : ℚ) := by
    exact_mod_cast scaledDen_pos denPos exponent
  have power : (0 : ℚ) < (2 : ℚ) ^ exponent := by positivity
  rw [← Nat.cast_le (α := ℚ), Nat.cast_mul, ← div_le_iff₀ denScaled]
  change (scaledNum num exponent : ℚ) / (scaledDen den exponent : ℚ) = _ at scaled
  rw [scaled, zpow_neg, ← div_eq_mul_inv, Nat.cast_ofNat, div_le_iff₀ power]

theorem le_scaledNum_iff {num den : Nat} (denPos : 0 < den) (exponent : Int) (bound : Nat) :
    bound * scaledDen den exponent ≤ scaledNum num exponent ↔
      bound * (2 : ℚ) ^ exponent ≤ (num : ℚ) / den := by
  have scaled := cast_scaled_div 2 num den (by decide) exponent
  have denScaled : (0 : ℚ) < (scaledDen den exponent : ℚ) := by
    exact_mod_cast scaledDen_pos denPos exponent
  have power : (0 : ℚ) < (2 : ℚ) ^ exponent := by positivity
  rw [← Nat.cast_le (α := ℚ), Nat.cast_mul, ← le_div_iff₀ denScaled]
  change (scaledNum num exponent : ℚ) / (scaledDen den exponent : ℚ) = _ at scaled
  rw [scaled, zpow_neg, ← div_eq_mul_inv, Nat.cast_ofNat, le_div_iff₀ power]

/-- The binary logarithm of a quotient is at most the difference of those of its parts. -/
theorem log_div_le {num den : Nat} (numPos : 0 < num) (denPos : 0 < den) :
    Int.log 2 ((num : ℚ) / den) ≤ (Nat.log2 num : Int) - Nat.log2 den := by
  have numQ : (0 : ℚ) < num := by exact_mod_cast numPos
  have denQ : (0 : ℚ) < den := by exact_mod_cast denPos
  have numHigh : (num : ℚ) < 2 ^ (Nat.log2 num + 1) := by exact_mod_cast Nat.lt_log2_self
  have denLow : (2 : ℚ) ^ Nat.log2 den ≤ den := by
    exact_mod_cast Nat.log2_self_le denPos.ne'
  rw [← Int.lt_add_one_iff, ← Int.lt_zpow_iff_log_lt (by decide) (div_pos numQ denQ),
    div_lt_iff₀ denQ]
  calc (num : ℚ) < 2 ^ (Nat.log2 num + 1) := numHigh
    _ = 2 ^ ((Nat.log2 num : Int) - Nat.log2 den + 1) * 2 ^ Nat.log2 den := by
      rw [← zpow_natCast, ← zpow_natCast, ← zpow_add₀ (by norm_num)]
      congr 1
      push_cast
      ring
    _ ≤ _ := mul_le_mul_of_nonneg_left denLow (by positivity)

/-- It is at most one less than that difference. -/
theorem le_log_div {num den : Nat} (numPos : 0 < num) (denPos : 0 < den) :
    (Nat.log2 num : Int) - Nat.log2 den - 1 ≤ Int.log 2 ((num : ℚ) / den) := by
  have numQ : (0 : ℚ) < num := by exact_mod_cast numPos
  have denQ : (0 : ℚ) < den := by exact_mod_cast denPos
  have numLow : (2 : ℚ) ^ Nat.log2 num ≤ num := by
    exact_mod_cast Nat.log2_self_le numPos.ne'
  have denHigh : (den : ℚ) < 2 ^ (Nat.log2 den + 1) := by exact_mod_cast Nat.lt_log2_self
  rw [← Int.zpow_le_iff_le_log (by decide) (div_pos numQ denQ), le_div_iff₀ denQ]
  calc ((2 : ℕ) : ℚ) ^ ((Nat.log2 num : Int) - Nat.log2 den - 1) * den
      ≤ 2 ^ ((Nat.log2 num : Int) - Nat.log2 den - 1) * 2 ^ (Nat.log2 den + 1) :=
        mul_le_mul_of_nonneg_left denHigh.le (by positivity)
    _ = 2 ^ Nat.log2 num := by
      rw [← zpow_natCast, ← zpow_natCast, ← zpow_add₀ (by norm_num)]
      congr 1
      push_cast
      ring
    _ ≤ num := numLow

/-- The binary logarithm of a quotient is the one of the rational number. -/
theorem floorLog_eq_log {num den : Nat} (numPos : 0 < num) (denPos : 0 < den) :
    floorLog num den = Int.log 2 ((num : ℚ) / den) := by
  have positive : (0 : ℚ) < num / den := by positivity
  have atMost := log_div_le numPos denPos
  have atLeast := le_log_div numPos denPos
  have test (power : Int) : den * Nat.pow 2 power.toNat ≤ num * Nat.pow 2 (-power).toNat ↔
      power ≤ Int.log 2 ((num : ℚ) / den) := by
    have compared : 1 * scaledDen den power ≤ scaledNum num power ↔
        (1 : Nat) * (2 : ℚ) ^ power ≤ (num : ℚ) / den := le_scaledNum_iff denPos power 1
    rw [one_mul, Nat.cast_one, one_mul] at compared
    rw [← Int.zpow_le_iff_le_log (by decide) positive]
    exact compared
  -- the estimate is right or one too high
  unfold floorLog
  simp only [test]
  split <;> omega

/-! ## Rounding to whole numbers -/

/-- Numerator and denominator can be multiplied by the same number. -/
theorem roundHalfEven_mul_right (num den : Nat) {factor : Nat} (positive : 0 < factor) :
    roundHalfEven (num * factor) (den * factor) = roundHalfEven num den := by
  have twice : 2 * (num % den * factor) = 2 * (num % den) * factor := by ring
  simp only [roundHalfEven, Nat.mul_div_mul_right num den positive,
    Nat.mul_mod_mul_right, twice, Nat.mul_lt_mul_right positive]

/-- Rounding depends on the quotient alone. -/
theorem roundHalfEven_congr {num den num' den' : Nat} (denPos : 0 < den) (denPos' : 0 < den')
    (same : num * den' = num' * den) : roundHalfEven num den = roundHalfEven num' den' := by
  rw [← roundHalfEven_mul_right num den denPos', ← roundHalfEven_mul_right num' den' denPos, same,
    Nat.mul_comm den den']

/-- A whole quotient is rounded to itself. -/
theorem roundHalfEven_mul_self (whole : Nat) {den : Nat} (denPos : 0 < den) :
    roundHalfEven (whole * den) den = whole := by
  simp [roundHalfEven, denPos]

/-- A quotient is rounded to a number that is not above a whole bound of it. -/
theorem roundHalfEven_le {num den bound : Nat} (below : num ≤ bound * den) (denPos : 0 < den) :
    roundHalfEven num den ≤ bound := by
  have split := Nat.div_add_mod num den
  have least : num / den ≤ bound := Nat.div_le_of_le_mul (by rwa [Nat.mul_comm] at below)
  rcases least.lt_or_eq with less | equal
  · have parity : (num / den) % 2 ≤ 1 := by omega
    unfold roundHalfEven
    dsimp only
    split <;> (try split) <;> omega
  · have rest : num % den = 0 := by
      rw [equal, Nat.mul_comm] at split
      omega
    simp [roundHalfEven, rest, denPos, equal]

/-- A quotient is rounded to a number that is not below a whole bound of it. -/
theorem le_roundHalfEven {num den bound : Nat} (above : bound * den ≤ num) (denPos : 0 < den) :
    bound ≤ roundHalfEven num den := by
  have most : bound ≤ num / den := (Nat.le_div_iff_mul_le denPos).mpr above
  unfold roundHalfEven
  dsimp only
  split <;> (try split) <;> omega

/-! ## Rounding to binary fractions -/

/-- The exponent at which a positive quotient is rounded. -/
def exponentOf (num den : Nat) : Int :=
  max (floorLog num den - 52) leastExponent

/-- A rounded significand at its exponent: one that has reached the limit is halved. -/
def settled (negative : Bool) (significand : Nat) (exponent : Int) : Binary64 :=
  if significand = significandLimit then
    if greatestExponent < exponent + 1 then infinite negative
    else finite negative fullSignificand (exponent + 1)
  else if greatestExponent < exponent then infinite negative
  else finite negative significand exponent

theorem ofRatio_eq_settled (negative : Bool) {num : Nat} (den : Nat) (numPos : 0 < num) :
    ofRatio negative num den = settled negative
      (roundHalfEven (scaledNum num (exponentOf num den)) (scaledDen den (exponentOf num den)))
      (exponentOf num den) := by
  rw [ofRatio, if_neg numPos.ne']
  extract_lets exponent significand
  change _ = settled negative significand exponent
  by_cases limit : significand = significandLimit
  · rw [if_pos limit, settled, if_pos limit]
  · rw [if_neg limit, settled, if_neg limit]

/-- Equal quotients are rounded alike. -/
theorem ofRatio_congr (negative : Bool) {num den num' den' : Nat} (denPos : 0 < den)
    (denPos' : 0 < den') (same : num * den' = num' * den) :
    ofRatio negative num den = ofRatio negative num' den' := by
  rcases Nat.eq_zero_or_pos num with zero | numPos
  · have zero' : num' = 0 := by
      rw [zero, Nat.zero_mul] at same
      exact (Nat.mul_eq_zero.mp same.symm).resolve_right denPos.ne'
    rw [ofRatio, ofRatio, if_pos zero, if_pos zero']
  · have numPos' : 0 < num' := by
      apply Nat.pos_of_ne_zero
      rintro rfl
      rw [Nat.zero_mul] at same
      exact absurd same (Nat.mul_pos numPos denPos').ne'
    have quotients : (num : ℚ) / den = (num' : ℚ) / den' := by
      rw [div_eq_div_iff (by exact_mod_cast denPos.ne') (by exact_mod_cast denPos'.ne')]
      exact_mod_cast same
    have exponents : exponentOf num den = exponentOf num' den' := by
      rw [exponentOf, exponentOf, floorLog_eq_log numPos denPos, floorLog_eq_log numPos' denPos',
        quotients]
    rw [ofRatio_eq_settled negative den numPos, ofRatio_eq_settled negative den' numPos', exponents]
    congr 1
    apply roundHalfEven_congr (scaledDen_pos denPos _) (scaledDen_pos denPos' _)
    simp only [scaledNum, scaledDen]
    calc _ = num * den' * (2 ^ (-exponentOf num' den').toNat * 2 ^ (exponentOf num' den').toNat) :=
          by ring
      _ = num' * den * (2 ^ (-exponentOf num' den').toNat * 2 ^ (exponentOf num' den').toNat) := by
          rw [same]
      _ = _ := by ring

/-- A significand that fits at its exponent is delivered as it is, and one at the limit is halved,
which is full; both are normal. -/
theorem settled_isNormal (negative : Bool) {significand : Nat} {exponent : Int}
    (fits : significand ≤ significandLimit) (least : leastExponent ≤ exponent)
    (full : significand < fullSignificand → exponent = leastExponent) :
    (settled negative significand exponent).IsNormal := by
  unfold settled
  split
  · split
    · trivial
    · refine ⟨by decide, by omega, by omega, fun below => absurd below (lt_irrefl _)⟩
  · split
    · trivial
    · exact ⟨lt_of_le_of_ne fits ‹_›, least, by omega, full⟩

/-- The exponent is the least one that leaves the significand below its limit. -/
theorem quotient_lt_limit {num den : Nat} (numPos : 0 < num) (denPos : 0 < den) :
    (num : ℚ) / den < (significandLimit : ℚ) * (2 : ℚ) ^ exponentOf num den := by
  have limit : (significandLimit : ℚ) = (2 : ℚ) ^ (53 : Int) := by
    norm_num [significandLimit]
  rw [limit, ← zpow_add₀ (by norm_num)]
  refine lt_of_lt_of_le (Int.lt_zpow_succ_log_self (by decide : 1 < 2) ((num : ℚ) / den)) ?_
  rw [← floorLog_eq_log numPos denPos]
  refine zpow_le_zpow_right₀ (by norm_num) ?_
  have above : floorLog num den - 52 ≤ exponentOf num den := le_max_left _ _
  omega

/-- Unless the exponent is the least of all, the significand has all its bits in use. -/
theorem full_le_quotient {num den : Nat} (numPos : 0 < num) (denPos : 0 < den)
    (above : exponentOf num den ≠ leastExponent) :
    (fullSignificand : ℚ) * (2 : ℚ) ^ exponentOf num den ≤ (num : ℚ) / den := by
  have full : (fullSignificand : ℚ) = (2 : ℚ) ^ (52 : Int) := by
    norm_num [fullSignificand]
  have log : exponentOf num den = floorLog num den - 52 :=
    (max_choice _ _).resolve_right above
  have quotient : (0 : ℚ) < (num : ℚ) / den := by positivity
  rw [full, ← zpow_add₀ (by norm_num), log, add_sub_cancel, floorLog_eq_log numPos denPos]
  exact Int.zpow_log_le_self (by decide : 1 < 2) quotient

/-- Rounding delivers a normal form. -/
theorem ofRatio_isNormal (negative : Bool) (num : Nat) {den : Nat} (denPos : 0 < den) :
    (ofRatio negative num den).IsNormal := by
  rcases Nat.eq_zero_or_pos num with rfl | numPos
  · exact ⟨by decide, le_rfl, by decide, fun _ => rfl⟩
  · rw [ofRatio_eq_settled negative den numPos]
    have scaledPos : 0 < scaledDen den (exponentOf num den) := scaledDen_pos denPos _
    apply settled_isNormal
    · exact roundHalfEven_le
        ((scaledNum_le_iff denPos _ _).mpr (quotient_lt_limit numPos denPos).le) scaledPos
    · exact le_max_right _ _
    · intro short
      by_contra above
      have full := le_roundHalfEven
        ((le_scaledNum_iff denPos _ _).mpr (full_le_quotient numPos denPos above)) scaledPos
      omega

/-- The exponent of a normal form is the one at which its value is rounded. -/
theorem exponentOf_ratio {significand : Nat} {exponent : Int} {negative : Bool}
    (positive : 0 < significand) (normal : (finite negative significand exponent).IsNormal) :
    exponentOf (ratio significand exponent).1 (ratio significand exponent).2 = exponent := by
  obtain ⟨fits, least, _, full⟩ := normal
  have numPos : 0 < (ratio significand exponent).1 :=
    Nat.mul_pos positive (Nat.pow_pos (by decide : 0 < 2))
  have value : (0 : ℚ) < (significand : ℚ) * (2 : ℚ) ^ exponent := by positivity
  have power : (0 : ℚ) < (2 : ℚ) ^ exponent := by positivity
  have fitsQ : (significand : ℚ) < (2 : ℚ) ^ (53 : Int) := by
    have bound : (significand : ℚ) < (significandLimit : ℚ) := by exact_mod_cast fits
    have limit : (significandLimit : ℚ) = (2 : ℚ) ^ (53 : Int) := by norm_num [significandLimit]
    rwa [limit] at bound
  have logBelow : Int.log 2 ((significand : ℚ) * (2 : ℚ) ^ exponent) < 53 + exponent := by
    rw [← Int.lt_zpow_iff_log_lt (by decide) value, Nat.cast_ofNat, zpow_add₀ (by norm_num)]
    exact mul_lt_mul_of_pos_right fitsQ power
  rw [exponentOf, floorLog_eq_log numPos (ratio_den_pos _ _), cast_ratio]
  by_cases short : significand < fullSignificand
  · have lowest := full short
    omega
  · have fullQ : (2 : ℚ) ^ (52 : Int) ≤ (significand : ℚ) := by
      have bound : (fullSignificand : ℚ) ≤ (significand : ℚ) := by exact_mod_cast not_lt.mp short
      have limit : (fullSignificand : ℚ) = (2 : ℚ) ^ (52 : Int) := by norm_num [fullSignificand]
      rwa [limit] at bound
    have logAbove : 52 + exponent ≤ Int.log 2 ((significand : ℚ) * (2 : ℚ) ^ exponent) := by
      rw [← Int.zpow_le_iff_le_log (by decide) value, Nat.cast_ofNat, zpow_add₀ (by norm_num)]
      exact mul_le_mul_of_nonneg_right fullQ power.le
    omega

/-- A normal form is rounded to itself. -/
theorem ofRatio_ratio (negative : Bool) {significand : Nat} {exponent : Int}
    (positive : 0 < significand) (normal : (finite negative significand exponent).IsNormal) :
    ofRatio negative (ratio significand exponent).1 (ratio significand exponent).2 =
      finite negative significand exponent := by
  have numPos : 0 < (ratio significand exponent).1 :=
    Nat.mul_pos positive (Nat.pow_pos (by decide : 0 < 2))
  have whole : scaledNum (ratio significand exponent).1 exponent =
      significand * scaledDen (ratio significand exponent).2 exponent := by
    simp only [scaledNum, scaledDen, ratio, Nat.pow_eq]
    ring
  rw [ofRatio_eq_settled negative _ numPos, exponentOf_ratio positive normal, whole,
    roundHalfEven_mul_self _ (scaledDen_pos (ratio_den_pos _ _) _), settled,
    if_neg normal.1.ne, if_neg (not_lt.mpr normal.2.2.1)]

end TurnScript.Binary64
