import Mathlib.Data.List.TakeWhile
import TurnScript.Number.Shortest
import TurnScript.Proofs.Number.Rounding
import TurnScript.Text.Numeral

/-!
# Shortest decimals read back

A decimal that is written for a value has been tested by reading it, and the whole expansion that
stands behind the tests is the value itself. So either way the decimal reads as the value, and
neither moving zeros between digits and power nor the sign changes that.
-/

namespace TurnScript.Text

/-! ## Runs of digits -/

/-- The digits that are read first count for more with every digit that follows. -/
theorem foldl_digits (start : Nat) (digits : List Char) :
    digits.foldl (fun value c => value * 10 + (digitValue? c).getD 0) start =
      start * 10 ^ digits.length + digitsValue digits := by
  induction digits generalizing start with
  | nil => simp [digitsValue]
  | cons c rest inductionHypothesis =>
    simp only [digitsValue, List.foldl_cons, List.length_cons] at inductionHypothesis ⊢
    rw [inductionHypothesis, inductionHypothesis (0 * 10 + _)]
    ring

/-- The value of two runs of digits one after the other. -/
theorem digitsValue_append (front back : List Char) :
    digitsValue (front ++ back) = digitsValue front * 10 ^ back.length + digitsValue back := by
  rw [digitsValue, List.foldl_append, foldl_digits]
  rfl

/-- Zeros alone count for nothing. -/
theorem digitsValue_zeros (count : Nat) : digitsValue (List.replicate count '0') = 0 := by
  induction count with
  | zero => rfl
  | succ count inductionHypothesis =>
    rw [List.replicate_succ', digitsValue_append, inductionHypothesis]
    decide

/-- Closing zeros multiply by powers of ten. -/
theorem digitsValue_append_zeros (digits : List Char) (count : Nat) :
    digitsValue (digits ++ List.replicate count '0') = digitsValue digits * 10 ^ count := by
  simp [digitsValue_append, digitsValue_zeros]

/-- Leading zeros count for nothing. -/
theorem digitsValue_zeros_append (count : Nat) (digits : List Char) :
    digitsValue (List.replicate count '0' ++ digits) = digitsValue digits := by
  simp [digitsValue_append, digitsValue_zeros]

/-- A digit that is written has the value it is written for. -/
theorem digitValue?_digitChar : ∀ digit < 10, digitValue? (Nat.digitChar digit) = some digit := by
  decide

/-- Reading the digits that are written for a number gives the number. -/
theorem digitsValue_toDigits (n : Nat) : digitsValue (Nat.toDigits 10 n) = n := by
  induction n using Nat.strongRecOn with
  | ind n inductionHypothesis =>
    rcases Nat.lt_or_ge n 10 with small | large
    · rw [Nat.toDigits_of_lt_base small]
      simp [digitsValue, digitValue?_digitChar n small]
    · have digit := digitValue?_digitChar (n % 10) (Nat.mod_lt _ (by decide))
      rw [Nat.toDigits_of_base_le (by decide) large, digitsValue_append,
        inductionHypothesis (n / 10) (by omega)]
      simp only [digitsValue, List.foldl_cons, List.foldl_nil, digit, Option.getD_some,
        List.length_singleton]
      omega

/-- What is written for a number other than zero does not begin with a zero. -/
theorem head?_toDigits_ne_zero {n : Nat} (positive : 0 < n) :
    (Nat.toDigits 10 n).head? ≠ some '0' := by
  induction n using Nat.strongRecOn with
  | ind n inductionHypothesis =>
    rcases Nat.lt_or_ge n 10 with small | large
    · have digits : ∀ digit < 10, 0 < digit → Nat.digitChar digit ≠ '0' := by decide
      rw [Nat.toDigits_of_lt_base small]
      simpa using digits n small positive
    · have shorter := inductionHypothesis (n / 10) (by omega) (by omega)
      rw [Nat.toDigits_of_base_le (by decide) large,
        List.head?_append_of_ne_nil _ Nat.toDigits_ne_nil]
      exact shorter

end TurnScript.Text

namespace TurnScript.Binary64

/-! ## Zeros and signs of decimals -/

/-- A closing zero is one more digit. -/
theorem decimalLength_mul_pow {n : Nat} (positive : 0 < n) (zeros : Nat) :
    decimalLength (n * 10 ^ zeros) = decimalLength n + zeros := by
  induction zeros with
  | zero => simp
  | succ zeros inductionHypothesis =>
    have large : 10 ≤ n * 10 ^ (zeros + 1) := by
      have power : 1 ≤ n * 10 ^ zeros := Nat.mul_pos positive (Nat.pow_pos (by decide))
      calc 10 ≤ n * 10 ^ zeros * 10 := by omega
        _ = n * 10 ^ (zeros + 1) := by ring
    have shorter : n * 10 ^ (zeros + 1) / 10 = n * 10 ^ zeros := by
      rw [pow_succ, ← mul_assoc, Nat.mul_div_cancel _ (by decide)]
    unfold decimalLength at inductionHypothesis ⊢
    rw [Nat.toDigits_of_base_le (by decide) large, shorter, List.length_append, inductionHypothesis]
    rfl

/-- Closing zeros can be moved from the digits into the power of ten. -/
theorem ofDecimal_mul_pow (negative : Bool) (digits zeros : Nat) (exponent : Int) :
    ofDecimal negative (digits * 10 ^ zeros) (exponent - zeros) =
      ofDecimal negative digits exponent := by
  rcases Nat.eq_zero_or_pos digits with rfl | positive
  · simp [ofDecimal]
  · have longer : digits * 10 ^ zeros ≠ 0 := (Nat.mul_pos positive (Nat.pow_pos (by decide))).ne'
    have place : exponent - zeros + ((decimalLength digits + zeros : Nat) : Int) =
        exponent + decimalLength digits := by
      push_cast
      ring
    have ratios : digits * 10 ^ zeros * 10 ^ (exponent - zeros).toNat * 10 ^ (-exponent).toNat =
        digits * 10 ^ exponent.toNat * 10 ^ (-(exponent - zeros)).toNat := by
      simp only [mul_assoc, ← pow_add]
      congr 2
      omega
    simp only [ofDecimal, longer, positive.ne', if_false, decimalLength_mul_pow positive, place,
      Nat.pow_eq]
    split
    · rfl
    split
    · rfl
    · exact ofRatio_congr negative (Nat.pow_pos (by decide)) (Nat.pow_pos (by decide)) ratios

/-- The magnitude that a quotient is rounded to does not depend on its sign. -/
theorem ofRatio_sign {num den significand : Nat} {exponent : Int}
    (magnitude : ofRatio false num den = finite false significand exponent) (negative : Bool) :
    ofRatio negative num den = finite negative significand exponent := by
  rcases Nat.eq_zero_or_pos num with rfl | positive
  · simp only [ofRatio, if_true, finite.injEq, true_and] at magnitude ⊢
    exact magnitude
  · rw [ofRatio_eq_settled _ den positive] at magnitude ⊢
    unfold settled at magnitude ⊢
    split at magnitude <;> split at magnitude
    · exact absurd magnitude (by simp)
    · rw [if_pos ‹_›, if_neg ‹_›]
      simpa using magnitude
    · exact absurd magnitude (by simp)
    · rw [if_neg ‹_›, if_neg ‹_›]
      simpa using magnitude

/-- The magnitude that a decimal reads as does not depend on its sign. -/
theorem ofDecimal_sign {digits significand : Nat} {power exponent : Int}
    (magnitude : ofDecimal false digits power = finite false significand exponent)
    (negative : Bool) : ofDecimal negative digits power = finite negative significand exponent := by
  unfold ofDecimal at magnitude ⊢
  split at magnitude
  · rw [if_pos ‹_›]
    exact ofRatio_sign magnitude negative
  split at magnitude
  · exact absurd magnitude (by simp)
  split at magnitude
  · rw [if_neg ‹_›, if_neg ‹_›, if_pos ‹_›]
    exact ofRatio_sign magnitude negative
  · rw [if_neg ‹_›, if_neg ‹_›, if_neg ‹_›]
    exact ofRatio_sign magnitude negative

/-- What a decimal reads as is in normal form. -/
theorem ofDecimal_isNormal (negative : Bool) (digits : Nat) (exponent : Int) :
    (ofDecimal negative digits exponent).IsNormal := by
  unfold ofDecimal
  split
  · exact ofRatio_isNormal negative 0 (by decide)
  split
  · trivial
  split
  · exact ofRatio_isNormal negative 0 (by decide)
  · exact ofRatio_isNormal negative _ (Nat.pow_pos (by decide))

end TurnScript.Binary64

namespace TurnScript.Decimal

open Binary64 (ofDecimal ofRatio ofRatio_congr ofRatio_ratio ratio_den_pos decimalLength finite
  IsNormal significandLimit leastExponent greatestExponent)

/-! ## The whole expansion -/

/-- A decimal within the range that is settled by arithmetic reads as its quotient. -/
theorem ofDecimal_eq_ofRatio {negative : Bool} {digits : Nat} {exponent : Int}
    (positive : 0 < digits) (most : exponent + decimalLength digits ≤ 400)
    (least : -400 ≤ exponent + decimalLength digits) :
    ofDecimal negative digits exponent =
      ofRatio negative (digits * 10 ^ exponent.toNat) (10 ^ (-exponent).toNat) := by
  rw [ofDecimal, if_neg positive.ne', if_neg (by omega), if_neg (by omega)]
  rfl

theorem decimalLength_le {n length : Nat} (positive : 0 < length) (below : n < 10 ^ length) :
    decimalLength n ≤ length :=
  (Nat.length_toDigits_le_iff (by decide) positive).mpr below

theorem lt_decimalLength {n length : Nat} (positive : 0 < length) (above : 10 ^ length ≤ n) :
    length < decimalLength n := by
  by_contra short
  exact absurd ((Nat.length_toDigits_le_iff (by decide) positive).mp (not_lt.mp short))
    (not_lt.mpr above)

/-- Three twos are less than a ten, so every three powers of two add at most one digit. -/
theorem decimalLength_mul_two_pow_le {significand : Nat} (limit : significand < 10 ^ 16)
    (power : Nat) : decimalLength (significand * 2 ^ power) ≤ 16 + (power / 3 + 1) := by
  have powers : 2 ^ power ≤ 10 ^ (power / 3 + 1) :=
    calc 2 ^ power ≤ 2 ^ (3 * (power / 3 + 1)) := Nat.pow_le_pow_right (by decide) (by omega)
      _ = (2 ^ 3) ^ (power / 3 + 1) := by rw [pow_mul]
      _ ≤ 10 ^ (power / 3 + 1) := Nat.pow_le_pow_left (by decide) _
  apply decimalLength_le (by omega)
  rw [pow_add]
  exact Nat.mul_lt_mul_of_lt_of_le limit powers (Nat.pow_pos (by decide))

/-- A five is less than a ten, so a power of five adds at most one digit each. -/
theorem decimalLength_mul_five_pow_le {significand : Nat} (limit : significand < 10 ^ 16)
    (power : Nat) : decimalLength (significand * 5 ^ power) ≤ 16 + power := by
  apply decimalLength_le (by omega)
  rw [pow_add]
  exact Nat.mul_lt_mul_of_lt_of_le limit (Nat.pow_le_pow_left (by decide) power)
    (Nat.pow_pos (by decide))

/-- Two twos are less than a five, so in the range of exponents a power of five has all but 400 of
the digits of the power of ten. -/
theorem le_decimalLength_mul_five_pow {significand : Nat} (positive : 0 < significand)
    {power : Nat} (most : power ≤ 1074) :
    power ≤ 400 + decimalLength (significand * 5 ^ power) := by
  rcases Nat.lt_or_ge 401 power with far | near
  · obtain ⟨beyond, rfl⟩ : ∃ beyond, power = beyond + 401 := ⟨power - 401, by omega⟩
    have twos : 2 ^ beyond ≤ 5 ^ (beyond / 2 + 1) :=
      calc 2 ^ beyond ≤ 2 ^ (2 * (beyond / 2 + 1)) := Nat.pow_le_pow_right (by decide) (by omega)
        _ = (2 ^ 2) ^ (beyond / 2 + 1) := by rw [pow_mul]
        _ ≤ 5 ^ (beyond / 2 + 1) := Nat.pow_le_pow_left (by decide) _
    have above : 10 ^ beyond ≤ significand * 5 ^ (beyond + 401) := by
      calc 10 ^ beyond = 5 ^ beyond * 2 ^ beyond := Nat.mul_pow 5 2 beyond
        _ ≤ 5 ^ beyond * 5 ^ (beyond / 2 + 1) := Nat.mul_le_mul_left _ twos
        _ = 5 ^ (beyond + (beyond / 2 + 1)) := (pow_add ..).symm
        _ ≤ 5 ^ (beyond + 401) := Nat.pow_le_pow_right (by decide) (by omega)
        _ ≤ significand * 5 ^ (beyond + 401) := Nat.le_mul_of_pos_left _ positive
    have longer := lt_decimalLength (by omega) above
    omega
  · have some : 0 < decimalLength (significand * 5 ^ power) :=
      List.length_pos_of_ne_nil Nat.toDigits_ne_nil
    omega

/-- The whole expansion of a normal form reads as the normal form. -/
theorem ofDecimal_exact {significand : Nat} {exponent : Int} (positive : 0 < significand)
    (normal : (finite false significand exponent).IsNormal) :
    ofDecimal false (exact significand exponent).digits (exact significand exponent).exponent =
      finite false significand exponent := by
  have ⟨fits, least, most, _⟩ := normal
  have denPos := ratio_den_pos significand exponent
  have limit : significand < 10 ^ 16 := lt_of_lt_of_le fits (by decide)
  unfold exact
  split
  case isTrue whole =>
    obtain ⟨power, rfl⟩ := Int.eq_ofNat_of_zero_le whole
    have powerMost : power ≤ 971 := by
      simp only [greatestExponent] at most
      omega
    have digitsPos : 0 < significand * 2 ^ power := Nat.mul_pos positive (Nat.pow_pos (by decide))
    have length := decimalLength_mul_two_pow_le limit power
    dsimp only [Int.toNat_natCast, Nat.pow_eq]
    rw [ofDecimal_eq_ofRatio digitsPos (by omega) (by omega)]
    rw [ofRatio_congr false (Nat.pow_pos (by decide)) denPos ?_]
    · exact ofRatio_ratio false positive normal
    · simp [Binary64.ratio]
  case isFalse fractional =>
    obtain ⟨power, rfl⟩ : ∃ power : Nat, exponent = -(power : Int) :=
      ⟨(-exponent).toNat, by omega⟩
    have powerMost : power ≤ 1074 := by
      simp only [leastExponent] at least
      omega
    have digitsPos : 0 < significand * 5 ^ power := Nat.mul_pos positive (Nat.pow_pos (by decide))
    have lengthMost := decimalLength_mul_five_pow_le limit power
    have lengthLeast := le_decimalLength_mul_five_pow positive powerMost
    simp only [neg_neg, Int.toNat_natCast, Nat.pow_eq]
    rw [ofDecimal_eq_ofRatio digitsPos (by omega) (by omega),
      ofRatio_congr false (Nat.pow_pos (by decide)) denPos ?_]
    · exact ofRatio_ratio false positive normal
    · simp only [Binary64.ratio, neg_neg, Int.toNat_natCast, Int.toNat_neg_natCast, Nat.pow_eq, pow_zero,
        mul_one]
      rw [mul_assoc, ← Nat.mul_pow]

/-! ## The shortest decimal -/

/-- A candidate has been tested by reading it. -/
theorem candidate_reads {x : Binary64} {num den length : Nat} {lead : Int} {d : Decimal}
    (found : candidate x num den lead length = some d) :
    ofDecimal false d.digits d.exponent = x := by
  unfold candidate at found
  dsimp only at found
  have read : d.readsAs x = true := by
    split at found
    · split at found <;> simp_all
    all_goals simp_all
  simpa [readsAs] using read

/-- The shortest decimal of a magnitude reads as the magnitude. -/
theorem ofDecimal_shortest {significand : Nat} {exponent : Int} (positive : 0 < significand)
    (normal : (finite false significand exponent).IsNormal) :
    ofDecimal false (shortest significand exponent).digits
        (shortest significand exponent).exponent = finite false significand exponent := by
  unfold shortest
  dsimp only
  cases found : (List.range 17).findSome? fun shorter =>
      candidate (finite false significand exponent) (Binary64.ratio significand exponent).1
        (Binary64.ratio significand exponent).2
        (leadingExponent (Binary64.ratio significand exponent).1
          (Binary64.ratio significand exponent).2) (shorter + 1) with
  | none => simpa [found] using ofDecimal_exact positive normal
  | some d =>
    obtain ⟨_, _, tested⟩ := List.exists_of_findSome?_eq_some found
    simpa [found] using candidate_reads tested

/-- The shortest decimal of a magnitude is not zero. -/
theorem shortest_pos {significand : Nat} {exponent : Int} (positive : 0 < significand)
    (normal : (finite false significand exponent).IsNormal) :
    0 < (shortest significand exponent).digits := by
  apply Nat.pos_of_ne_zero
  intro zero
  have reads := ofDecimal_shortest positive normal
  rw [zero, ofDecimal, if_pos rfl, ofRatio, if_pos rfl] at reads
  simp only [finite.injEq, true_and] at reads
  omega

/-- Leaving out closing zeros leaves digits to which as many zeros are added as the exponent was
raised by. -/
theorem stripZeros_spec (digits : List Char) (exponent : Int) :
    ∃ zeros : Nat,
      digits = (stripZeros digits exponent).1 ++ List.replicate zeros '0' ∧
        (stripZeros digits exponent).2 = exponent + zeros := by
  have closing : (digits.reverse.takeWhile (· == '0')) =
      List.replicate (digits.reverse.takeWhile (· == '0')).length '0' := by
    apply List.eq_replicate_of_mem
    intro c member
    simpa using List.mem_takeWhile_imp member
  have parts : digits = (digits.reverse.dropWhile (· == '0')).reverse ++
      (digits.reverse.takeWhile (· == '0')).reverse := by
    rw [← List.reverse_append, List.takeWhile_append_dropWhile, List.reverse_reverse]
  refine ⟨(digits.reverse.takeWhile (· == '0')).length, ?_, ?_⟩
  · conv_lhs => rw [parts, closing]
    simp [stripZeros]
  · have lengths := congrArg List.length parts
    simp only [List.length_append, List.length_reverse] at lengths
    simp only [stripZeros, List.length_reverse]
    omega

end TurnScript.Decimal
