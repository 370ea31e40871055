import TurnScript.Json.Reader
import TurnScript.Json.Writer
import TurnScript.Proofs.Number.Shortest

/-!
# Written numbers read back

A number that is written is read up to its end, which is a character that no number goes on with,
and gives the number that was written: a whole number itself, a float by way of the decimal that
it is written as. Each layout of a decimal puts its digits beside a point or an exponent that
makes up for where they stand.
-/

namespace TurnScript.Json

open Text (digitsValue digitsOf)

/-! ## Where a number ends -/

/-- A text that is empty or begins with what may follow a value. -/
def Closes (rest : List Char) : Prop :=
  ∀ c ∈ rest.head?, c = ',' ∨ c = ']' ∨ c = '}' ∨ isGap c = true

@[simp] theorem closes_nil : Closes [] := by
  simp [Closes]

theorem closes_cons {c : Char} {rest : List Char} :
    Closes (c :: rest) ↔ c = ',' ∨ c = ']' ∨ c = '}' ∨ isGap c = true := by
  simp [Closes]

/-- What may follow a value is no digit, no point and no mark of an exponent. -/
theorem Closes.plain {rest : List Char} (closes : Closes rest) :
    ∀ c ∈ rest.head?, isCommonDigit c = false ∧ c ≠ '.' ∧ c ≠ 'e' ∧ c ≠ 'E' := by
  intro c first
  rcases closes c first with rfl | rfl | rfl | gap
  · decide
  · decide
  · decide
  · simp only [isGap, Bool.or_eq_true, beq_iff_eq] at gap
    obtain ((rfl | rfl) | rfl) | rfl := gap <;> decide

theorem Closes.noDigit {rest : List Char} (closes : Closes rest) :
    ∀ c ∈ rest.head?, isCommonDigit c = false :=
  fun c first => (closes.plain c first).1

/-! ## The parts of a number -/

/-- The digits before the point: any run that does not begin with a zero. -/
theorem readWhole_digits {digits : List Char} (rest : List Char) (nonempty : digits ≠ [])
    (all : ∀ c ∈ digits, isCommonDigit c = true) (lead : digits.head? ≠ some '0')
    (ends : ∀ c ∈ rest.head?, isCommonDigit c = false) :
    readWhole (digits ++ rest) = some (digits, rest) := by
  have taken := Text.takeWhile_run all ends
  have left := Text.dropWhile_run all ends
  unfold readWhole
  split
  case h_1 rest' shape =>
    cases digits with
    | nil => exact absurd rfl nonempty
    | cons c digits =>
      simp only [List.cons_append, List.cons.injEq] at shape
      simp [shape.1] at lead
  case h_2 => simp [taken, left, nonempty]

/-- The digits after a point. -/
theorem readFraction_digits {decimals rest : List Char} (nonempty : decimals ≠ [])
    (all : ∀ c ∈ decimals, isCommonDigit c = true)
    (ends : ∀ c ∈ rest.head?, isCommonDigit c = false) :
    readFraction ('.' :: (decimals ++ rest)) = some (decimals, rest) := by
  simp [readFraction, Text.takeWhile_run all ends, Text.dropWhile_run all ends, nonempty]

/-- Without a point there is no fraction. -/
theorem readFraction_none {rest : List Char} (ends : ∀ c ∈ rest.head?, c ≠ '.') :
    readFraction rest = none := by
  cases rest with
  | nil => rfl
  | cons c rest =>
    have other := ends c rfl
    unfold readFraction
    split <;> simp_all

/-- Without a mark of an exponent there is none. -/
theorem readExponent_none {rest : List Char} (ends : ∀ c ∈ rest.head?, c ≠ 'e' ∧ c ≠ 'E') :
    readExponent rest = none := by
  cases rest with
  | nil => rfl
  | cons c rest =>
    have other := ends c rfl
    unfold readExponent
    dsimp only
    split
    · rfl
    · next signed =>
      split at signed <;> simp_all

/-- A signed exponent. -/
theorem readExponent_signed (negative : Bool) {figures : List Char} (rest : List Char)
    (nonempty : figures ≠ [])
    (all : ∀ c ∈ figures, isCommonDigit c = true)
    (ends : ∀ c ∈ rest.head?, isCommonDigit c = false) :
    readExponent ('e' :: (if negative then '-' else '+') :: (figures ++ rest)) =
      some (if negative then -(digitsValue figures : Int) else digitsValue figures, rest) := by
  cases negative <;>
    simp [readExponent, Text.takeWhile_run all ends, Text.dropWhile_run all ends, nonempty]

/-! ## Whole numbers -/

/-- The characters that are written for a number are digits. -/
theorem isCommonDigit_toDigits (n : Nat) : ∀ c ∈ Nat.toDigits 10 n, isCommonDigit c = true := by
  intro c member
  have digit := Nat.isDigit_of_mem_toDigits (by decide) (by decide) member
  simp only [Char.isDigit, Bool.and_eq_true, decide_eq_true_eq, ge_iff_le] at digit
  simp only [isCommonDigit, Bool.and_eq_true, decide_eq_true_eq]
  exact digit

/-- The digits of a number are read whole, a zero alone included. -/
theorem readWhole_toDigits (n : Nat) {rest : List Char}
    (ends : ∀ c ∈ rest.head?, isCommonDigit c = false) :
    readWhole (Nat.toDigits 10 n ++ rest) = some (Nat.toDigits 10 n, rest) := by
  rcases Nat.eq_zero_or_pos n with rfl | positive
  · rfl
  · exact readWhole_digits rest Nat.toDigits_ne_nil (isCommonDigit_toDigits n)
      (Text.head?_toDigits_ne_zero positive) ends

/-- The digits of a number within the limit are read as the number. -/
theorem readNumber_toDigits (negative : Bool) {n : Nat} {rest : List Char} (start : List Char)
    (writable : (digitsOf n).length ≤ Text.digitLimit) (closes : Closes rest) :
    readNumber negative (digitsOf n ++ rest) start =
      .ok (int (if negative then -(n : Int) else n), rest) := by
  have fraction : readFraction rest = none :=
    readFraction_none fun c first => (closes.plain c first).2.1
  have exponent : readExponent rest = none :=
    readExponent_none fun c first => (closes.plain c first).2.2
  have within : ¬ Text.digitLimit < (digitsOf n).length := not_lt.mpr writable
  have value : digitsValue (digitsOf n) = n := Text.digitsValue_toDigits n
  have whole : readWhole (digitsOf n ++ rest) = some (digitsOf n, rest) :=
    readWhole_toDigits n closes.noDigit
  simp [readNumber, whole, fraction, exponent, within, value]

/-! ## Decimals -/

/-- A number with digits on both sides of a point is read as the decimal of all of them. -/
theorem readNumber_pointed (negative : Bool) (whole decimals : List Char) {rest : List Char}
    (start : List Char)
    (readsWhole : readWhole (whole ++ '.' :: (decimals ++ rest)) =
      some (whole, '.' :: (decimals ++ rest)))
    (nonempty : decimals ≠ []) (all : ∀ c ∈ decimals, isCommonDigit c = true)
    (closes : Closes rest) :
    readNumber negative (whole ++ '.' :: (decimals ++ rest)) start =
      .ok (float (Binary64.ofDecimal negative (digitsValue (whole ++ decimals))
        (-(decimals.length : Int))), rest) := by
  have fraction := readFraction_digits nonempty all closes.noDigit
  have exponent : readExponent rest = none :=
    readExponent_none fun c first => (closes.plain c first).2.2
  simp [readNumber, readsWhole, fraction, exponent]

/-- Zeros beside a run of digits are digits. -/
theorem isCommonDigit_zeros (count : Nat) :
    ∀ c ∈ List.replicate count '0', isCommonDigit c = true := by
  intro c member
  rw [List.eq_of_mem_replicate member]
  decide

theorem forall_mem_append {front back : List Char} {P : Char → Prop} (inFront : ∀ c ∈ front, P c)
    (inBack : ∀ c ∈ back, P c) : ∀ c ∈ front ++ back, P c :=
  fun c member => (List.mem_append.mp member).elim (inFront c) (inBack c)

/-- An exponent is written with its sign and at least two figures. -/
theorem readExponent_written (power : Int) {rest : List Char} (closes : Closes rest) :
    readExponent ('e' :: (if power < 0 then '-' else '+') ::
      (List.replicate (2 - (Nat.toDigits 10 power.natAbs).length) '0' ++
        Nat.toDigits 10 power.natAbs ++ rest)) = some (power, rest) := by
  have figures := readExponent_signed (decide (power < 0)) rest (by simp [Nat.toDigits_ne_nil])
    (forall_mem_append (isCommonDigit_zeros (2 - (Nat.toDigits 10 power.natAbs).length))
      (isCommonDigit_toDigits power.natAbs)) closes.noDigit
  simp only [decide_eq_true_eq, Text.digitsValue_zeros_append, Text.digitsValue_toDigits]
    at figures
  rw [figures]
  congr 2
  split <;> omega

section

variable {digits rest : List Char} (nonempty : digits ≠ [])
  (all : ∀ c ∈ digits, isCommonDigit c = true) (lead : digits.head? ≠ some '0')
  (closes : Closes rest)

/-- A point is no digit. -/
theorem noDigit_point (after : List Char) :
    ∀ c ∈ ('.' :: after).head?, isCommonDigit c = false := by
  intro c first
  obtain rfl : '.' = c := by simpa using first
  decide

include nonempty all closes

/-- Zeros between a point and the digits behind it move the digits down. -/
theorem readNumber_point_before (negative : Bool) (start : List Char) (zeros : Nat) :
    readNumber negative (['0'] ++ '.' :: (List.replicate zeros '0' ++ digits ++ rest)) start =
      .ok (float (Binary64.ofDecimal negative (digitsValue digits)
        (-(zeros : Int) - digits.length)), rest) := by
  have read := readNumber_pointed negative ['0'] _ start rfl (by simp [nonempty])
    (forall_mem_append (isCommonDigit_zeros zeros) all) closes
  have value : digitsValue (['0'] ++ (List.replicate zeros '0' ++ digits)) = digitsValue digits := by
    rw [← List.append_assoc, show ['0'] = List.replicate 1 '0' from rfl,
      List.replicate_append_replicate, Text.digitsValue_zeros_append]
  have power : -((List.replicate zeros '0' ++ digits).length : Int) =
      -(zeros : Int) - digits.length := by
    simp only [List.length_append, List.length_replicate]
    omega
  rw [value, power] at read
  exact read

include lead

/-- Zeros between the digits and a point behind them move the digits up. -/
theorem readNumber_point_behind (negative : Bool) (start : List Char) (zeros : Nat) :
    readNumber negative (digits ++ List.replicate zeros '0' ++ '.' :: (['0'] ++ rest)) start =
      .ok (float (Binary64.ofDecimal negative (digitsValue digits) zeros), rest) := by
  have wholeLead : (digits ++ List.replicate zeros '0').head? ≠ some '0' := by
    rwa [List.head?_append_of_ne_nil _ nonempty]
  have read := readNumber_pointed negative _ ['0'] start
    (readWhole_digits _ (by simp [nonempty]) (forall_mem_append all (isCommonDigit_zeros zeros))
      wholeLead (noDigit_point _)) (by simp) (by simp [isCommonDigit]) closes
  have value : digitsValue (digits ++ List.replicate zeros '0' ++ ['0']) =
      digitsValue digits * 10 ^ (zeros + 1) := by
    rw [List.append_assoc, ← List.replicate_succ', Text.digitsValue_append_zeros]
  have power : -((['0'] : List Char).length : Int) = zeros - ((zeros + 1 : Nat) : Int) := by
    simp only [List.length_singleton]
    omega
  rw [value, power, Binary64.ofDecimal_mul_pow] at read
  exact read

/-- A point among the digits parts them. -/
theorem readNumber_point_among (negative : Bool) (start : List Char) (place : Nat)
    (positive : 0 < place) (inside : place < digits.length) :
    readNumber negative (digits.take place ++ '.' :: (digits.drop place ++ rest)) start =
      .ok (float (Binary64.ofDecimal negative (digitsValue digits) (place - digits.length)),
        rest) := by
  have front : digits.take place ≠ [] := by
    simp only [ne_eq, List.take_eq_nil_iff, not_or]
    exact ⟨positive.ne', nonempty⟩
  have frontLead : (digits.take place).head? ≠ some '0' := by
    rw [List.head?_take, if_neg positive.ne']
    exact lead
  have back : digits.drop place ≠ [] := by
    simp only [ne_eq, List.drop_eq_nil_iff]
    omega
  have read := readNumber_pointed negative _ _ start
    (readWhole_digits _ front (fun c member => all c (List.mem_of_mem_take member)) frontLead
      (noDigit_point _)) back (fun c member => all c (List.mem_of_mem_drop member)) closes
  have power : -((digits.drop place).length : Int) = place - digits.length := by
    simp only [List.length_drop]
    omega
  rw [List.take_append_drop, power] at read
  exact read

/-- A decimal in positional notation is read as its digits with the point at its place. -/
theorem readNumber_positional (negative : Bool) (start : List Char) (point : Int) :
    readNumber negative (FloatLayout.positional digits point ++ rest) start =
      .ok (float (Binary64.ofDecimal negative (digitsValue digits) (point - digits.length)),
        rest) := by
  unfold FloatLayout.positional
  split
  case isTrue before =>
    obtain ⟨zeros, rfl⟩ : ∃ zeros : Nat, point = -(zeros : Int) := ⟨(-point).toNat, by omega⟩
    have read := readNumber_point_before nonempty all closes negative start zeros
    simpa using read
  case isFalse notBefore =>
    obtain ⟨place, rfl⟩ := Int.eq_ofNat_of_zero_le (le_of_lt (not_le.mp notBefore))
    rw [Int.toNat_natCast]
    split
    case isTrue beyond =>
      have read := readNumber_point_behind nonempty all lead closes negative start
        (place - digits.length)
      rw [Nat.cast_sub beyond] at read
      simpa using read
    case isFalse within =>
      have read := readNumber_point_among nonempty all lead closes negative start place
        (by omega) (by omega)
      simpa using read

/-- A decimal in exponent notation is read as its digits with the point at its place. -/
theorem readNumber_scientific (negative : Bool) (start : List Char) (point : Int) :
    readNumber negative (FloatLayout.standard.scientific digits point ++ rest) start =
      .ok (float (Binary64.ofDecimal negative (digitsValue digits) (point - digits.length)),
        rest) := by
  have power := readExponent_written (point - 1) closes
  generalize tailIs : 'e' :: (if point - 1 < 0 then '-' else '+') ::
      (List.replicate (2 - (Nat.toDigits 10 (point - 1).natAbs).length) '0' ++
        Nat.toDigits 10 (point - 1).natAbs ++ rest) = tail at power
  have mark : ∀ c ∈ tail.head?, c = 'e' := by
    rw [← tailIs]
    simp
  have noDigit : ∀ c ∈ tail.head?, isCommonDigit c = false := by
    intro c first
    rw [mark c first]
    decide
  have noPoint : readFraction tail = none :=
    readFraction_none fun c first => by
      rw [mark c first]
      decide
  obtain ⟨digit, more, rfl⟩ := List.exists_cons_of_ne_nil nonempty
  have one : ∀ c ∈ [digit], isCommonDigit c = true :=
    List.forall_mem_singleton.mpr (all digit List.mem_cons_self)
  rcases more with _ | ⟨second, more⟩
  · have whole := readWhole_digits tail (by simp) one lead noDigit
    have shape : FloatLayout.standard.scientific [digit] point ++ rest = [digit] ++ tail := by
      simp [FloatLayout.scientific, FloatLayout.standard, ← tailIs]
    rw [shape, readNumber, whole]
    simp [noPoint, power]
  · have whole := readWhole_digits ('.' :: (second :: more ++ tail)) (by simp) one lead
      (noDigit_point _)
    have fraction := readFraction_digits (by simp)
      (fun c member => all c (List.mem_cons_of_mem _ member)) noDigit
    have shape : FloatLayout.standard.scientific (digit :: second :: more) point ++ rest =
        [digit] ++ '.' :: (second :: more ++ tail) := by
      simp [FloatLayout.scientific, FloatLayout.standard, ← tailIs]
    have place : point - 1 - ((second :: more).length : Int) =
        point - ((digit :: second :: more).length : Int) := by
      simp only [List.length_cons]
      omega
    rw [shape, readNumber, whole]
    simp only [fraction, power, Option.getD_some, Option.isSome_some, Bool.true_or, if_true, place,
      List.singleton_append]

end

/-- The text of a decimal is read as the decimal. -/
theorem readNumber_write (negative : Bool) {d : Decimal} {rest : List Char} (start : List Char)
    (positive : 0 < d.digits) (closes : Closes rest) :
    readNumber negative (FloatLayout.standard.write d ++ rest) start =
      .ok (float (Binary64.ofDecimal negative d.digits d.exponent), rest) := by
  obtain ⟨zeros, parts, raised⟩ := Decimal.stripZeros_spec (Nat.toDigits 10 d.digits) d.exponent
  have lead := Text.head?_toDigits_ne_zero positive
  have value := Text.digitsValue_toDigits d.digits
  have allDigits := isCommonDigit_toDigits d.digits
  unfold FloatLayout.write
  generalize Decimal.stripZeros (Nat.toDigits 10 d.digits) d.exponent = kept at parts raised
  obtain ⟨digits, exponent⟩ := kept
  simp only at parts raised ⊢
  rw [parts] at lead value allDigits
  have nonempty : digits ≠ [] := by
    rintro rfl
    rw [List.nil_append, Text.digitsValue_zeros] at value
    omega
  have all : ∀ c ∈ digits, isCommonDigit c = true := fun c member => allDigits c (by simp [member])
  rw [List.head?_append_of_ne_nil _ nonempty] at lead
  rw [Text.digitsValue_append_zeros] at value
  have decimal : Binary64.ofDecimal negative d.digits d.exponent =
      Binary64.ofDecimal negative (digitsValue digits)
        (exponent + digits.length - digits.length) := by
    rw [← value, add_sub_cancel_right,
      ← Binary64.ofDecimal_mul_pow negative (digitsValue digits) zeros exponent, raised,
      add_sub_cancel_right]
  rw [decimal]
  split
  · exact readNumber_positional nonempty all lead closes negative start _
  · exact readNumber_scientific nonempty all lead closes negative start _

/-- The text of a positive magnitude is read as the magnitude with the sign at hand. -/
theorem readNumber_magnitude (negative : Bool) {significand : Nat} {exponent : Int}
    {rest : List Char} (start : List Char) (positive : 0 < significand)
    (normal : (Binary64.finite false significand exponent).IsNormal) (closes : Closes rest) :
    readNumber negative
        (FloatLayout.standard.write (Decimal.shortest significand exponent) ++ rest) start =
      .ok (float (.finite negative significand exponent), rest) := by
  rw [readNumber_write negative start (Decimal.shortest_pos positive normal) closes,
    Binary64.ofDecimal_sign (Decimal.ofDecimal_shortest positive normal)]

/-- A zero with a fraction is read as the zero of normal form with the sign at hand. -/
theorem readNumber_zero (negative : Bool) {rest : List Char} (start : List Char)
    (closes : Closes rest) :
    readNumber negative (['0', '.', '0'] ++ rest) start =
      .ok (float (.finite negative 0 Binary64.leastExponent), rest) :=
  readNumber_pointed negative ['0'] ['0'] start rfl (by simp)
    (by simp [isCommonDigit]) closes

end TurnScript.Json
