import TurnScript.Proofs.Number.Rounding

/-!
# How near rounding comes

Rounding a quotient errs by at most half a unit of the last place. Where all bits of the significand
are in use that is at most one part in 2 ^ 53 of the quotient, and below that range it is at most
half of the finest step. A quotient that is not too large is rounded to a finite value, and finite
values are compared with whole numbers as the rational numbers that they stand for.
-/

namespace TurnScript.Binary64

/-- The magnitude of a finite value. -/
def magnitude (significand : Nat) (exponent : Int) : ℚ :=
  significand * (2 : ℚ) ^ exponent

/-- By how much the rounding of a quotient may err. -/
def tolerance (quotient : ℚ) : ℚ :=
  max (quotient / 2 ^ 53) ((2 : ℚ) ^ (-1075 : Int))

/-- Rounding to a whole number errs by at most one half. -/
theorem roundHalfEven_near (num : Nat) {den : Nat} (denPos : 0 < den) :
    |(roundHalfEven num den : ℚ) - (num : ℚ) / den| ≤ 1 / 2 := by
  have denQ : (0 : ℚ) < den := by exact_mod_cast denPos
  have split := Nat.div_add_mod num den
  have rest := Nat.mod_lt num denPos
  have bounds : 2 * (roundHalfEven num den * den) ≤ 2 * num + den ∧
      2 * num ≤ 2 * (roundHalfEven num den * den) + den := by
    have parity : (num / den) % 2 = 0 ∨ (num / den) % 2 = 1 := by omega
    have whole : num / den * den + num % den = num := by rw [Nat.mul_comm]; exact split
    unfold roundHalfEven
    dsimp only
    split
    · omega
    · split
      · rw [Nat.add_mul]
        omega
      · rcases parity with even | odd
        · rw [even, Nat.add_zero]
          omega
        · rw [odd, Nat.add_mul]
          omega
  have lower : 2 * ((roundHalfEven num den : ℚ) * den) ≤ 2 * num + den := by
    exact_mod_cast bounds.1
  have upper : 2 * (num : ℚ) ≤ 2 * ((roundHalfEven num den : ℚ) * den) + den := by
    exact_mod_cast bounds.2
  rw [abs_le]
  constructor
  · rw [neg_le_sub_iff_le_add, div_le_iff₀ denQ]
    linarith
  · rw [sub_le_iff_le_add, ← sub_le_iff_le_add', le_div_iff₀ denQ]
    linarith

/-- A significand that is rounded at an exponent errs by at most half of that power of two. -/
theorem rounded_near (num : Nat) {den : Nat} (denPos : 0 < den) (exponent : Int) :
    |magnitude (roundHalfEven (scaledNum num exponent) (scaledDen den exponent)) exponent -
      (num : ℚ) / den| ≤ (2 : ℚ) ^ exponent / 2 := by
  have power : (0 : ℚ) < (2 : ℚ) ^ exponent := by positivity
  have near := roundHalfEven_near (scaledNum num exponent) (scaledDen_pos denPos exponent)
  have scaled : (scaledNum num exponent : ℚ) / (scaledDen den exponent : ℚ) =
      (num : ℚ) / den * (2 : ℚ) ^ (-exponent) := cast_scaled_div 2 num den (by decide) exponent
  rw [scaled] at near
  have unscaled : magnitude (roundHalfEven (scaledNum num exponent) (scaledDen den exponent))
        exponent - (num : ℚ) / den =
      ((roundHalfEven (scaledNum num exponent) (scaledDen den exponent) : ℚ) -
        (num : ℚ) / den * (2 : ℚ) ^ (-exponent)) * (2 : ℚ) ^ exponent := by
    rw [magnitude, sub_mul, mul_assoc, ← zpow_add₀ (by norm_num), neg_add_cancel, zpow_zero, mul_one]
  rw [unscaled, abs_mul, abs_of_pos power]
  calc _ ≤ 1 / 2 * (2 : ℚ) ^ exponent := mul_le_mul_of_nonneg_right near power.le
    _ = (2 : ℚ) ^ exponent / 2 := by ring

/-- Half a unit of the last place is within the tolerance. -/
theorem half_unit_le {num den : Nat} (numPos : 0 < num) (denPos : 0 < den) :
    (2 : ℚ) ^ exponentOf num den / 2 ≤ tolerance ((num : ℚ) / den) := by
  by_cases least : exponentOf num den = leastExponent
  · refine le_trans (le_of_eq ?_) (le_max_right _ _)
    rw [least, leastExponent, div_eq_mul_inv, ← zpow_neg_one, ← zpow_add₀ (by norm_num)]
    norm_num
  · refine le_trans ?_ (le_max_left _ _)
    have full := full_le_quotient numPos denPos least
    have bits : (fullSignificand : ℚ) = 2 ^ 52 := by norm_num [fullSignificand]
    rw [bits] at full
    rw [div_le_div_iff₀ (by norm_num) (by norm_num)]
    linarith

/-- Settling a significand keeps the magnitude, unless it is beyond the greatest exponent. -/
theorem magnitude_of_settled {negative sign : Bool} {significand settledTo : Nat}
    {exponent settledAt : Int}
    (settles : settled negative significand exponent = finite sign settledTo settledAt) :
    sign = negative ∧ magnitude settledTo settledAt = magnitude significand exponent := by
  unfold settled at settles
  split at settles
  · next limit =>
    split at settles
    · cases settles
    · cases settles
      refine ⟨rfl, ?_⟩
      rw [magnitude, magnitude, limit, zpow_add₀ (by norm_num), zpow_one, mul_comm _ (2 : ℚ),
        ← mul_assoc]
      norm_num [fullSignificand, significandLimit]
  · split at settles
    · cases settles
    · cases settles
      exact ⟨rfl, rfl⟩

/-- What a quotient is rounded to is within the tolerance of it. -/
theorem ofRatio_near {negative sign : Bool} {num den significand : Nat} {exponent : Int}
    (denPos : 0 < den) (rounds : ofRatio negative num den = finite sign significand exponent) :
    sign = negative ∧
      |magnitude significand exponent - (num : ℚ) / den| ≤ tolerance ((num : ℚ) / den) := by
  rcases Nat.eq_zero_or_pos num with rfl | numPos
  · rw [ofRatio, if_pos rfl] at rounds
    cases rounds
    refine ⟨rfl, ?_⟩
    simp [magnitude, tolerance]
  · rw [ofRatio_eq_settled negative den numPos] at rounds
    obtain ⟨same, kept⟩ := magnitude_of_settled rounds
    refine ⟨same, ?_⟩
    rw [kept]
    exact (rounded_near num denPos _).trans (half_unit_le numPos denPos)

/-- A quotient that is not too large is rounded to a finite value. -/
theorem exists_ofRatio (negative : Bool) {num den : Nat} (denPos : 0 < den)
    (small : (num : ℚ) / den < (2 : ℚ) ^ (1023 : Int)) :
    ∃ significand exponent, ofRatio negative num den = finite negative significand exponent := by
  rcases Nat.eq_zero_or_pos num with rfl | numPos
  · exact ⟨0, leastExponent, by rw [ofRatio, if_pos rfl]⟩
  · have quotient : (0 : ℚ) < (num : ℚ) / den := by positivity
    have log : floorLog num den < 1023 := by
      rw [floorLog_eq_log numPos denPos, ← Int.lt_zpow_iff_log_lt (by decide) quotient]
      exact small
    have room : exponentOf num den + 1 ≤ greatestExponent := by
      rw [exponentOf, leastExponent, greatestExponent]
      omega
    rw [ofRatio_eq_settled negative den numPos, settled]
    split
    · exact ⟨_, _, if_neg (by omega)⟩
    · exact ⟨_, _, if_neg (by omega)⟩

/-! ## Finite values as rational numbers -/

/-- A magnitude with a sign. -/
def signed (negative : Bool) (magnitude : ℚ) : ℚ :=
  if negative then -magnitude else magnitude

/-- Values are compared as their multiples by a positive number. -/
theorem compare_scaled {value : ℚ} {num : Int} {den : Nat} (positive : 0 < den)
    (scaled : value * den = num) (n : Int) : compare num (n * den) = compare value (n : ℚ) := by
  have denQ : (0 : ℚ) < den := by exact_mod_cast positive
  rcases lt_trichotomy value n with less | equal | greater
  · rw [compare_lt_iff_lt.mpr less, compare_lt_iff_lt]
    have multiples := mul_lt_mul_of_pos_right less denQ
    rw [scaled] at multiples
    exact_mod_cast multiples
  · rw [compare_eq_iff_eq.mpr equal, compare_eq_iff_eq]
    rw [equal] at scaled
    exact_mod_cast scaled.symm
  · rw [compare_gt_iff_gt.mpr greater, compare_gt_iff_gt]
    have multiples := mul_lt_mul_of_pos_right greater denQ
    rw [scaled] at multiples
    exact_mod_cast multiples

/-- A finite value is compared with a whole number as the rational number that it stands for. -/
theorem compareInt_finite (negative : Bool) (significand : Nat) (exponent : Int) (n : Int) :
    (finite negative significand exponent).compareInt n =
      some (compare (signed negative (magnitude significand exponent)) (n : ℚ)) := by
  have den := ratio_den_pos significand exponent
  have stands := cast_ratio significand exponent
  rw [div_eq_iff (by exact_mod_cast den.ne')] at stands
  have scaled : signed negative (magnitude significand exponent) *
      (ratio significand exponent).2 =
      ((if negative then -Int.ofNat (ratio significand exponent).1
        else Int.ofNat (ratio significand exponent).1 : Int) : ℚ) := by
    cases negative with
    | false => simpa [signed, magnitude] using stands.symm
    | true => simpa [signed, magnitude] using stands.symm
  simp only [compareInt]
  congr 1
  generalize (if negative then -Int.ofNat (ratio significand exponent).1
    else Int.ofNat (ratio significand exponent).1 : Int) = num at *
  exact compare_scaled den scaled n

theorem abs_signed (negative : Bool) (x : ℚ) : |signed negative x| = |x| := by
  cases negative with
  | false => rfl
  | true => exact abs_neg x

theorem abs_signed_sub (negative : Bool) (x y : ℚ) :
    |signed negative x - signed negative y| = |x - y| := by
  cases negative with
  | false => rfl
  | true =>
    simp only [signed, if_true]
    rw [neg_sub_neg, abs_sub_comm]

end TurnScript.Binary64
