import Mathlib.Data.List.TakeWhile
import TurnScript.Condition.Threshold
import TurnScript.Proofs.Number.Precision

/-!
# Thresholds compare as whole numbers do

A percentage is rounded twice, and so it may lie on the other side of a threshold than the exact
one. Two roundings stay within a margin, and where the exact percentage is further than that from
the threshold the answer is the exact one. What is left are percentages next to the threshold: for
the numbers of hit points that are in use that is the threshold itself.
-/

namespace TurnScript

/-! ## Blanks and digits -/

namespace Text

/-- The code points of the blank characters. -/
def blankPoints : List Nat :=
  [9, 10, 11, 12, 13, 28, 29, 30, 31, 32, 0x85, 0xA0, 0x1680, 0x2000, 0x2001, 0x2002, 0x2003,
   0x2004, 0x2005, 0x2006, 0x2007, 0x2008, 0x2009, 0x200A, 0x2028, 0x2029, 0x202F, 0x205F, 0x3000]

theorem mem_blankPoints {c : Char} (blank : isBlank c = true) : c.toNat ∈ blankPoints := by
  simp only [isBlank, isWhiteSpace, Bool.or_eq_true, Bool.and_eq_true, decide_eq_true_eq,
    beq_iff_eq] at blank
  simp only [blankPoints, List.mem_cons, List.not_mem_nil, or_false]
  omega

/-- No digit is blank. -/
theorem isBlank_of_isDigit {c : Char} (digit : isDigit c = true) : isBlank c = false := by
  have none : ∀ n ∈ blankPoints, n < 128 ∨
      (scriptZeros.find? fun start => start ≤ n && n < start + 10) = none := by decide
  have plain : ∀ n ∈ blankPoints, n < 48 ∨ 57 < n := by decide
  by_contra blank
  have member := mem_blankPoints (Bool.eq_true_of_not_eq_false blank)
  have outside : ¬ ('0' ≤ c ∧ c ≤ '9') := by
    rintro ⟨least, most⟩
    have least : 48 ≤ c.toNat := least
    have most : c.toNat ≤ 57 := most
    have := plain c.toNat member
    omega
  simp only [isDigit, digitValue?, if_neg outside] at digit
  split at digit
  · cases digit
  · next large =>
    rw [(none c.toNat member).resolve_left large] at digit
    cases digit

/-- A numeral of digits alone that is not too long is read. -/
theorem readDigits_of_digits {whole digits : List Char} (some : digits ≠ [])
    (digit : ∀ c ∈ digits, isDigit c = true) (short : digits.length ≤ digitLimit) :
    readDigits whole digits = .ok (digitsValue digits) := by
  have all : digits.takeWhile isDigit = digits := List.takeWhile_eq_self_iff.mpr digit
  simp [readDigits, all, some, Nat.not_lt.mpr short]

end Text

/-! ## The leftmost threshold -/

/-- How a comparison is written. -/
def Comparison.sign : Comparison → List Char
  | below => ['<']
  | atMost => ['<', '=']
  | above => ['>']
  | atLeast => ['>', '=']

/-- Whether a comparison holds between whole numbers. -/
def Comparison.holds : Comparison → Int → Int → Bool
  | below, a, b => a < b
  | atMost, a, b => a ≤ b
  | above, a, b => a > b
  | atLeast, a, b => a ≥ b

namespace Threshold

/-- A text that begins with a threshold: a sign, any blanks, and all the digits that follow. -/
inductive Heads : List Char → Comparison → List Char → Prop where
  | intro {comparison : Comparison} {blanks digits rest : List Char}
      (blank : ∀ c ∈ blanks, Text.isBlank c = true) (some : digits ≠ [])
      (digit : ∀ c ∈ digits, Text.isDigit c = true)
      (ends : ∀ c ∈ rest.head?, Text.isDigit c = false) :
      Heads (comparison.sign ++ (blanks ++ (digits ++ rest))) comparison digits

/-- A threshold of a text before which no other one begins. -/
def IsLeftmost (text : List Char) (comparison : Comparison) (digits : List Char) : Prop :=
  ∃ place, Heads (text.drop place) comparison digits ∧
    ∀ earlier < place, ∀ other others, ¬ Heads (text.drop earlier) other others

theorem Heads.digits {s digits : List Char} {comparison : Comparison}
    (heads : Heads s comparison digits) :
    digits ≠ [] ∧ ∀ c ∈ digits, Text.isDigit c = true := by
  cases heads with
  | intro blank some digit ends => exact ⟨some, digit⟩

theorem digits?_eq_some_iff {s digits : List Char} :
    digits? s = some digits ↔ ∃ blanks rest, s = blanks ++ (digits ++ rest) ∧
      (∀ c ∈ blanks, Text.isBlank c = true) ∧ digits ≠ [] ∧
      (∀ c ∈ digits, Text.isDigit c = true) ∧ ∀ c ∈ rest.head?, Text.isDigit c = false := by
  constructor
  · intro found
    unfold digits? at found
    dsimp only at found
    split at found
    · cases found
    · next some =>
      obtain rfl := Option.some.inj found
      refine ⟨s.takeWhile Text.isBlank, (s.dropWhile Text.isBlank).dropWhile Text.isDigit, ?_, ?_,
        ?_, ?_, ?_⟩
      · rw [List.takeWhile_append_dropWhile, List.takeWhile_append_dropWhile]
      · exact List.all_eq_true.mp List.all_takeWhile
      · simpa using some
      · exact List.all_eq_true.mp List.all_takeWhile
      · exact Text.head?_dropWhile Text.isDigit _
  · rintro ⟨blanks, rest, rfl, blank, some, digit, ends⟩
    have dropped : (blanks ++ (digits ++ rest)).dropWhile Text.isBlank = digits ++ rest := by
      rw [List.dropWhile_append_of_pos blank]
      cases digits with
      | nil => exact absurd rfl some
      | cons c digits =>
        have notBlank := Text.isBlank_of_isDigit (digit c List.mem_cons_self)
        simp [notBlank]
    have taken := Text.takeWhile_run digit ends
    simp only [digits?, dropped, taken, List.isEmpty_iff, if_neg some]

/-- The digits after a sign are found where they head the text behind it. -/
theorem heads_iff {s digits : List Char} {comparison : Comparison} :
    Heads s comparison digits ↔ ∃ rest, s = comparison.sign ++ rest ∧
      digits? rest = some digits := by
  constructor
  · rintro ⟨blank, some, digit, ends⟩
    exact ⟨_, rfl, digits?_eq_some_iff.mpr ⟨_, _, rfl, blank, some, digit, ends⟩⟩
  · rintro ⟨rest, rfl, found⟩
    obtain ⟨blanks, rest, rfl, blank, some, digit, ends⟩ := digits?_eq_some_iff.mp found
    exact ⟨blank, some, digit, ends⟩

/-- No digits are found where the text goes on with an equals sign. -/
theorem digits?_equals (rest : List Char) : digits? ('=' :: rest) = none := by
  have notBlank : Text.isBlank '=' = false := by decide
  have notDigit : Text.isDigit '=' = false := by decide
  simp [digits?, notBlank, notDigit]

theorem here?_eq_some_iff {s digits : List Char} {comparison : Comparison} :
    here? s = some (comparison, digits) ↔ Heads s comparison digits := by
  rw [heads_iff]
  constructor
  · intro found
    unfold here? at found
    split at found
    all_goals first
      | cases found
      | (obtain ⟨_, here, same⟩ := Option.map_eq_some_iff.mp found
         cases same
         exact ⟨_, rfl, here⟩)
  · rintro ⟨rest, rfl, found⟩
    cases comparison with
    | atMost => simp [Comparison.sign, here?, found]
    | atLeast => simp [Comparison.sign, here?, found]
    | below =>
      have plain : ∀ tail, rest ≠ '=' :: tail := by
        rintro tail rfl
        rw [digits?_equals] at found
        cases found
      simp only [Comparison.sign, List.cons_append, List.nil_append]
      rw [here?.eq_3 _ plain, found]
      rfl
    | above =>
      have plain : ∀ tail, rest ≠ '=' :: tail := by
        rintro tail rfl
        rw [digits?_equals] at found
        cases found
      simp only [Comparison.sign, List.cons_append, List.nil_append]
      rw [here?.eq_4 _ plain, found]
      rfl

theorem not_heads_nil {comparison : Comparison} {digits : List Char} :
    ¬ Heads [] comparison digits := by
  intro heads
  have found := here?_eq_some_iff.mpr heads
  cases found

/-- The leftmost threshold heads the text, or none does and it is the leftmost one of the rest. -/
theorem isLeftmost_cons {c : Char} {rest digits : List Char} {comparison : Comparison} :
    IsLeftmost (c :: rest) comparison digits ↔ Heads (c :: rest) comparison digits ∨
      (∀ other others, ¬ Heads (c :: rest) other others) ∧ IsLeftmost rest comparison digits := by
  constructor
  · rintro ⟨place, heads, first⟩
    cases place with
    | zero => exact .inl heads
    | succ place =>
      refine .inr ⟨first 0 place.succ_pos, place, heads, ?_⟩
      intro earlier before
      exact first (earlier + 1) (Nat.succ_lt_succ before)
  · rintro (heads | ⟨none, place, heads, first⟩)
    · exact ⟨0, heads, fun earlier before => absurd before earlier.not_lt_zero⟩
    · refine ⟨place + 1, heads, ?_⟩
      intro earlier before
      cases earlier with
      | zero => exact none
      | succ earlier => exact first earlier (Nat.lt_of_succ_lt_succ before)

/-- What is found in a text is its leftmost threshold. -/
theorem find?_eq_some_iff {text digits : List Char} {comparison : Comparison} :
    find? text = some (comparison, digits) ↔ IsLeftmost text comparison digits := by
  induction text with
  | nil =>
    constructor
    · intro found
      cases found
    · rintro ⟨place, heads, -⟩
      rw [List.drop_nil] at heads
      exact absurd heads not_heads_nil
  | cons c rest inductionHypothesis =>
    rw [isLeftmost_cons, ← inductionHypothesis, find?, Option.or_eq_some_iff, here?_eq_some_iff]
    have none : here? (c :: rest) = none ↔ ∀ other others, ¬ Heads (c :: rest) other others := by
      simp only [Option.eq_none_iff_forall_ne_some, Prod.forall, ne_eq, here?_eq_some_iff]
    rw [none]

/-! ## Exactness -/

/-- How the rounded percentage of a token at exactly a percentage of up to a hundred lies to it. -/
def drift (percentage : Nat) : Ordering :=
  if percentage ∈ [7, 14, 28, 55, 56] then .gt
  else if percentage ∈ [29, 57, 58] then .lt
  else .eq

/-- A percentage that is so far from a threshold, and neither so large nor so small, that rounding
does not move it across. -/
structure IsClear (hp : Int) (maxHp threshold : Nat) : Prop where
  apart : 100 * hp.natAbs < 2 ^ 51 * (100 * hp - threshold * maxHp).natAbs
  bounded : hp.natAbs < 2 ^ 1016 * maxHp
  visible : threshold = 0 → maxHp ≤ 2 ^ 1074 * hp.natAbs

/-- With few hit points only a percentage that is exactly the threshold is not clear of it. -/
theorem isClear_of_few {hp : Int} {maxHp threshold : Nat} (counted : 0 < maxHp)
    (most : maxHp ≤ 2 ^ 1074) (few : 100 * hp.natAbs < 2 ^ 51)
    (off : 100 * hp ≠ threshold * maxHp) : IsClear hp maxHp threshold where
  apart := by
    have distance : 1 ≤ (100 * hp - threshold * maxHp).natAbs :=
      Int.natAbs_pos.mpr (sub_ne_zero.mpr off)
    exact few.trans_le (Nat.le_mul_of_pos_right _ distance)
  bounded := by
    have some : hp.natAbs < 2 ^ 1016 := by
      have fewer : hp.natAbs < 2 ^ 51 := by omega
      exact fewer.trans_le (pow_le_pow_right₀ (by decide) (by decide))
    exact some.trans_le (Nat.le_mul_of_pos_right _ counted)
  visible := by
    rintro rfl
    have some : 0 < hp.natAbs := by
      apply Int.natAbs_pos.mpr
      rintro rfl
      simp at off
    exact most.trans (Nat.le_mul_of_pos_right _ some)

open Binary64

/-! ### Two roundings -/

/-- The margin of two roundings of a value. -/
def margin (value : ℚ) : ℚ :=
  value * (1 / 2 ^ 51 - 1 / 2 ^ 53) + 102 * (2 : ℚ) ^ (-1075 : Int)

/-- A value that is rounded, taken a hundredfold and rounded again is within the margin. -/
theorem rounded_twice_near {value once twice : ℚ} (nonneg : 0 ≤ value)
    (first : |once - value| ≤ tolerance value)
    (second : |twice - 100 * once| ≤ tolerance (100 * once)) :
    |twice - 100 * value| ≤ margin (100 * value) := by
  have positive : (0 : ℚ) < (2 : ℚ) ^ (-1075 : Int) := by positivity
  unfold margin
  unfold tolerance at first second
  generalize (2 : ℚ) ^ (-1075 : Int) = step at *
  have firstSum : max (value / 2 ^ 53) step ≤ value / 2 ^ 53 + step :=
    max_le (by linarith) (by linarith [div_nonneg nonneg (by norm_num : (0 : ℚ) ≤ 2 ^ 53)])
  have near := abs_le.mp (first.trans firstSum)
  have secondSum : max (100 * once / 2 ^ 53) step ≤ |100 * once| / 2 ^ 53 + step := by
    apply max_le
    · have := div_le_div_of_nonneg_right (le_abs_self (100 * once))
        (by norm_num : (0 : ℚ) ≤ 2 ^ 53)
      linarith
    · have := div_nonneg (abs_nonneg (100 * once)) (by norm_num : (0 : ℚ) ≤ 2 ^ 53)
      linarith
  have far := abs_le.mp (second.trans secondSum)
  have size : |100 * once| ≤ 100 * (value + (value / 2 ^ 53 + step)) := by
    rw [abs_le]
    constructor <;> linarith [near.1, near.2]
  rw [abs_le]
  constructor <;> linarith [near.1, near.2, far.1, far.2, size]

/-- The margin does not reach a threshold that a percentage is clear of. -/
theorem margin_lt {percentage : ℚ} {threshold : Nat}
    (apart : |percentage| / 2 ^ 51 < |percentage - threshold|)
    (visible : threshold = 0 → 200 * (2 : ℚ) ^ (-1075 : Int) ≤ |percentage|) :
    margin |percentage| < |percentage - threshold| := by
  have positive : (0 : ℚ) < (2 : ℚ) ^ (-1075 : Int) := by positivity
  have fine : (2 : ℚ) ^ (-1075 : Int) ≤ 1 / 2 ^ 64 := by
    have : (2 : ℚ) ^ (-1075 : Int) ≤ 2 ^ (-64 : Int) :=
      zpow_le_zpow_right₀ (by norm_num) (by norm_num)
    exact this.trans (by norm_num)
  unfold margin
  generalize (2 : ℚ) ^ (-1075 : Int) = step at *
  have nonneg := abs_nonneg percentage
  rcases Nat.eq_zero_or_pos threshold with rfl | some
  · have least := visible rfl
    rw [Nat.cast_zero, sub_zero]
    linarith
  · have whole : (1 : ℚ) ≤ threshold := by exact_mod_cast some
    by_cases half : |percentage| < 1 / 2
    · have far : 1 / 2 ≤ |percentage - threshold| := by
        rw [abs_sub_comm]
        exact le_trans (by linarith [le_abs_self percentage]) (le_abs_self _)
      linarith
    · linarith [not_lt.mp half]

/-! ### The percentage -/

/-- A value lies to a threshold as another one that is nearer to it than the threshold is. -/
theorem compare_of_near {near value threshold : ℚ} (close : |near - value| < |value - threshold|) :
    compare near threshold = compare value threshold := by
  have bounds := abs_lt.mp close
  rcases lt_trichotomy value threshold with less | rfl | greater
  · rw [compare_lt_iff_lt.mpr less, compare_lt_iff_lt]
    rw [abs_of_neg (sub_neg.mpr less)] at bounds
    linarith [bounds.2]
  · rw [sub_self, abs_zero] at close
    exact absurd close (abs_nonneg _).not_gt
  · rw [compare_gt_iff_gt.mpr greater, compare_gt_iff_gt]
    rw [abs_of_pos (sub_pos.mpr greater)] at bounds
    linarith [bounds.1]

theorem percentage_eq_signed (hp : Int) (maxHp : Nat) :
    (100 * hp / maxHp : ℚ) = signed (hp < 0) (100 * ((hp.natAbs : ℚ) / maxHp)) := by
  rw [Nat.cast_natAbs]
  by_cases negative : hp < 0
  · simp only [signed, negative, decide_true, if_true, abs_of_neg negative]
    push_cast
    ring
  · simp only [signed, negative, decide_false, Bool.false_eq_true, if_false,
      abs_of_nonneg (not_lt.mp negative)]
    ring

/-- The hundredfold of a rounded quotient that is bounded can be rounded. -/
theorem hundredfold_lt {value once : ℚ} (nonneg : 0 ≤ value) (bounded : value < 2 ^ (1016 : Int))
    (first : |once - value| ≤ tolerance value) : 100 * once < 2 ^ (1023 : Int) := by
  have limit : (2 : ℚ) ^ (1023 : Int) = 128 * 2 ^ (1016 : Int) := by
    rw [show (1023 : Int) = 7 + 1016 by norm_num, zpow_add₀ (by norm_num)]
    norm_num
  have fine : (2 : ℚ) ^ (-1075 : Int) ≤ 2 ^ (1016 : Int) / 8 := by
    rw [div_eq_mul_inv, show (8 : ℚ)⁻¹ = 2 ^ (-3 : Int) by norm_num, ← zpow_add₀ (by norm_num)]
    exact zpow_le_zpow_right₀ (by norm_num) (by norm_num)
  rw [limit]
  unfold tolerance at first
  generalize (2 : ℚ) ^ (-1075 : Int) = step at *
  generalize (2 : ℚ) ^ (1016 : Int) = bound at *
  have close : max (value / 2 ^ 53) step ≤ bound / 8 :=
    max_le (by linarith only [nonneg, bounded]) fine
  linarith only [(abs_le.mp (first.trans close)).2, nonneg, bounded]

/-- The percentage is a finite value within the margin of the exact one. -/
theorem percent?_near {hp : Int} {maxHp : Nat} (counted : 0 < maxHp)
    (bounded : hp.natAbs < 2 ^ 1016 * maxHp) :
    ∃ significand exponent,
      percent? hp maxHp = some (.finite (hp < 0) significand exponent) ∧
      |signed (hp < 0) (magnitude significand exponent) - 100 * hp / maxHp| ≤
        margin |(100 * hp / maxHp : ℚ)| := by
  have countedQ : (0 : ℚ) < maxHp := by exact_mod_cast counted
  have quotient : (0 : ℚ) ≤ (hp.natAbs : ℚ) / maxHp := by positivity
  have small : (hp.natAbs : ℚ) / maxHp < (2 : ℚ) ^ (1016 : Int) := by
    rw [div_lt_iff₀ countedQ]
    exact_mod_cast bounded
  obtain ⟨significand, exponent, once⟩ := exists_ofRatio (hp < 0) counted
    (small.trans (zpow_lt_zpow_right₀ (by norm_num) (by norm_num)))
  have first := (ofRatio_near counted once).2
  have den := ratio_den_pos significand exponent
  have hundredfold : (((ratio significand exponent).1 * 100 : Nat) : ℚ) /
      (ratio significand exponent).2 = 100 * magnitude significand exponent := by
    rw [Nat.cast_mul, mul_comm, mul_div_assoc, cast_ratio]
    rfl
  have room := hundredfold_lt quotient small first
  obtain ⟨significand₂, exponent₂, twice⟩ := exists_ofRatio (hp < 0) den (hundredfold.trans_lt room)
  have second := (ofRatio_near den twice).2
  rw [hundredfold] at second
  refine ⟨significand₂, exponent₂, ?_, ?_⟩
  · simp [percent?, quotient?, once, scale, twice]
  · have nonneg : (0 : ℚ) ≤ 100 * ((hp.natAbs : ℚ) / maxHp) :=
      mul_nonneg (by norm_num) quotient
    rw [percentage_eq_signed, abs_signed_sub, abs_signed, abs_of_nonneg nonneg]
    exact rounded_twice_near quotient first second

/-- A percentage that is clear of a threshold lies to it as the exact one does. -/
theorem IsClear.order {hp : Int} {maxHp threshold : Nat} (counted : 0 < maxHp)
    (clear : IsClear hp maxHp threshold) :
    (percent? hp maxHp).bind (·.compareInt threshold) =
      some (compare (100 * hp) (threshold * maxHp : Int)) := by
  have countedQ : (0 : ℚ) < maxHp := by exact_mod_cast counted
  obtain ⟨significand, exponent, found, near⟩ := percent?_near counted clear.bounded
  have size : |(100 * hp / maxHp : ℚ)| = 100 * (hp.natAbs : ℚ) / maxHp := by
    rw [abs_div, abs_mul, Nat.cast_natAbs, abs_of_pos countedQ, Int.cast_abs]
    norm_num
  have apart : |(100 * hp / maxHp : ℚ)| / 2 ^ 51 < |(100 * hp / maxHp : ℚ) - threshold| := by
    have apart : (100 * hp.natAbs : ℚ) < 2 ^ 51 * |((100 * hp - threshold * maxHp : Int) : ℚ)| := by
      have apart := clear.apart
      rw [← Int.cast_abs, ← Nat.cast_natAbs]
      exact_mod_cast apart
    have distance : (100 * hp / maxHp : ℚ) - threshold =
        ((100 * hp - threshold * maxHp : Int) : ℚ) / maxHp := by
      push_cast
      field_simp
    rw [size, distance, abs_div, abs_of_pos countedQ, div_right_comm,
      div_lt_div_iff_of_pos_right countedQ, div_lt_iff₀ (by norm_num), mul_comm |_|]
    exact apart
  have visible : threshold = 0 → 200 * (2 : ℚ) ^ (-1075 : Int) ≤ |(100 * hp / maxHp : ℚ)| := by
    intro zero
    have visible : (maxHp : ℚ) ≤ 2 ^ 1074 * hp.natAbs := by exact_mod_cast clear.visible zero
    have finer : (2 : ℚ) ^ (-1075 : Int) * 2 ^ 1074 = 1 / 2 := by
      rw [← zpow_natCast, ← zpow_add₀ (by norm_num)]
      norm_num
    have positive : (0 : ℚ) < (2 : ℚ) ^ (-1075 : Int) := by positivity
    rw [size, le_div_iff₀ countedQ]
    generalize (2 : ℚ) ^ (-1075 : Int) = step at *
    generalize (2 : ℚ) ^ 1074 = steps at *
    calc 200 * step * maxHp ≤ 200 * step * (steps * hp.natAbs) :=
          mul_le_mul_of_nonneg_left visible (by positivity)
      _ = 200 * (step * steps) * hp.natAbs := by ring
      _ = 100 * hp.natAbs := by rw [finer]; ring
  have scaled : (100 * hp / maxHp : ℚ) * maxHp = (100 * hp : Int) := by
    push_cast
    field_simp
  rw [found, Option.bind_some, compareInt_finite, compare_scaled counted scaled, Int.cast_natCast,
    compare_of_near (near.trans_lt (margin_lt apart visible))]

/-- At exactly a percentage the rounded one is that of as many of a hundred. -/
theorem percent?_exact {hp : Int} {maxHp percentage : Nat} (counted : 0 < maxHp)
    (exact : 100 * hp = percentage * maxHp) : percent? hp maxHp = percent? percentage 100 := by
  have nonneg : 0 ≤ hp := by
    have : (0 : Int) ≤ percentage * maxHp := by positivity
    omega
  obtain ⟨hp, rfl⟩ := Int.eq_ofNat_of_zero_le nonneg
  have same : hp * 100 = percentage * maxHp := by
    rw [Nat.mul_comm]
    exact_mod_cast exact
  have quotients := ofRatio_congr false counted (by decide : 0 < 100) same
  have positive : ∀ n : Nat, decide ((n : Int) < 0) = false := fun n => by simp
  simp only [percent?, quotient?, positive, Int.natAbs_natCast, quotients]

/-- How the percentage of a token at up to a hundred of a hundred lies to it. -/
theorem order_hundred : ∀ percentage : Nat, percentage ≤ 100 →
    (percent? percentage 100).bind (·.compareInt percentage) = some (drift percentage) := by
  decide +kernel

end Threshold

theorem Comparison.accepts_compare (comparison : Comparison) (a b : Int) :
    comparison.accepts (compare a b) = comparison.holds a b := by
  rcases lt_trichotomy a b with less | rfl | greater
  · rw [compare_lt_iff_lt.mpr less]
    cases comparison <;> simp [accepts, holds, less, less.le, less.not_gt, less.not_ge]
  · rw [compare_eq_iff_eq.mpr rfl]
    cases comparison <;> simp [accepts, holds]
  · rw [compare_gt_iff_gt.mpr greater]
    cases comparison <;> simp [accepts, holds, greater, greater.le, greater.not_gt, greater.not_ge]

open Threshold

section Token

variable {t : Token} {text : String} {comparison : Comparison} {digits : List Char}

/-- The leftmost threshold of a text is what a token is held to. -/
theorem Token.meetsThreshold_eq (counted : 0 < t.maxHp)
    (leftmost : IsLeftmost text.toList comparison digits)
    (short : digits.length ≤ Text.digitLimit) :
    t.meetsThreshold (some text) = match percent? t.hp t.maxHp.toNat with
      | none => .error .overflow
      | some percent => .ok (((percent.compareInt (Text.digitsValue digits)).map
          comparison.accepts).getD false) := by
  have read : Text.readDigits digits digits = .ok (Text.digitsValue digits) := by
    obtain ⟨place, heads, -⟩ := leftmost
    exact Text.readDigits_of_digits heads.digits.1 heads.digits.2 short
  cases share : percent? t.hp t.maxHp.toNat <;>
    simp only [Token.meetsThreshold, Option.getD_some, find?_eq_some_iff.mpr leftmost,
      if_neg (not_le.mpr counted), read, share]

/-- The order of the percentage and the threshold decides. -/
theorem Token.meetsThreshold_of_order {order : Ordering} (counted : 0 < t.maxHp)
    (leftmost : IsLeftmost text.toList comparison digits)
    (short : digits.length ≤ Text.digitLimit)
    (lies : (percent? t.hp t.maxHp.toNat).bind (·.compareInt (Text.digitsValue digits)) =
      some order) : t.meetsThreshold (some text) = .ok (comparison.accepts order) := by
  obtain ⟨percent, found, compared⟩ := Option.bind_eq_some_iff.mp lies
  rw [Token.meetsThreshold_eq counted leftmost short, found]
  dsimp only
  rw [compared]
  rfl

/-- A threshold is met as the whole numbers compare wherever the percentage is clear of it, with
few hit points already wherever it is not the very threshold. At the very threshold a token is
judged as one with as many of a hundred, and there rounding has drifted off eight percentages. -/
theorem thresholds_compared (counted : 0 < t.maxHp)
    (leftmost : IsLeftmost text.toList comparison digits)
    (short : digits.length ≤ Text.digitLimit) :
    (IsClear t.hp t.maxHp.toNat (Text.digitsValue digits) →
      t.meetsThreshold (some text) =
        .ok (comparison.holds (100 * t.hp) (Text.digitsValue digits * t.maxHp))) ∧
    (t.maxHp ≤ 2 ^ 1074 → 100 * t.hp.natAbs < 2 ^ 51 →
      100 * t.hp ≠ Text.digitsValue digits * t.maxHp →
      t.meetsThreshold (some text) =
        .ok (comparison.holds (100 * t.hp) (Text.digitsValue digits * t.maxHp))) ∧
    (100 * t.hp = Text.digitsValue digits * t.maxHp →
      t.meetsThreshold (some text) =
          { t with hp := Text.digitsValue digits, maxHp := 100 }.meetsThreshold (some text) ∧
        (Text.digitsValue digits ≤ 100 → t.meetsThreshold (some text) =
          .ok (comparison.accepts (drift (Text.digitsValue digits))))) := by
  have maxHp : ((t.maxHp.toNat : Nat) : Int) = t.maxHp := Int.toNat_of_nonneg counted.le
  have positive : 0 < t.maxHp.toNat := by omega
  have clear : IsClear t.hp t.maxHp.toNat (Text.digitsValue digits) →
      t.meetsThreshold (some text) =
        .ok (comparison.holds (100 * t.hp) (Text.digitsValue digits * t.maxHp)) := by
    intro clear
    have order := clear.order positive
    rw [maxHp] at order
    rw [Token.meetsThreshold_of_order counted leftmost short order, Comparison.accepts_compare]
  refine ⟨clear, ?_, ?_⟩
  · intro most few off
    apply clear
    apply isClear_of_few positive _ few
    · rwa [maxHp]
    · have : (t.maxHp.toNat : Int) ≤ 2 ^ 1074 := maxHp.trans_le most
      exact_mod_cast this
  · intro exact
    rw [← maxHp] at exact
    have same := percent?_exact positive exact
    constructor
    · rw [Token.meetsThreshold_eq counted leftmost short, same,
        Token.meetsThreshold_eq (show (0 : Int) < 100 by decide) leftmost short]
      rfl
    · intro most
      apply Token.meetsThreshold_of_order counted leftmost short
      rw [same]
      exact order_hundred _ most

end Token

/-- A token that has lost some of its hit points. -/
def injured (hp maxHp : Int) : Token :=
  { id := "hero", name := "Hero", hp := hp, maxHp := maxHp }

/-- A token with twenty of forty hit points is at most at fifty percent. -/
theorem thresholds_compared_half :
    0 < (injured 20 40).maxHp ∧ IsLeftmost "hp <= 50 or < 3".toList .atMost ['5', '0'] ∧
      ['5', '0'].length ≤ Text.digitLimit ∧
      (injured 20 40).meetsThreshold (some "hp <= 50 or < 3") = .ok true := by
  have leftmost : IsLeftmost "hp <= 50 or < 3".toList .atMost ['5', '0'] :=
    find?_eq_some_iff.mp (by rfl)
  have short : ['5', '0'].length ≤ Text.digitLimit := by decide
  have compared := thresholds_compared (t := injured 20 40) (by decide) leftmost short
  exact ⟨by decide, leftmost, short, (compared.2.2 (by decide)).2 (by decide)⟩

/-- Seven of a hundred hit points are seven percent, and yet they are above seven. -/
theorem seven_of_hundred_is_above_seven :
    (IsLeftmost "<= 7".toList .atMost ['7'] ∧ IsLeftmost "> 7".toList .above ['7']) ∧
      Text.digitsValue ['7'] = 7 ∧ 100 * (injured 7 100).hp = 7 * (injured 7 100).maxHp ∧
      (injured 7 100).meetsThreshold (some "<= 7") = .ok false ∧
      (injured 7 100).meetsThreshold (some "> 7") = .ok true := by
  refine ⟨⟨find?_eq_some_iff.mp (by rfl), find?_eq_some_iff.mp (by rfl)⟩, ?_⟩
  decide +kernel

end TurnScript
