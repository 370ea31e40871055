import TurnScript.Proofs.Json.RoundTrip

/-!
# What reading delivers

Whatever text is read, the value that comes of it is proper and can be written again: floats come
from rounding, a name that occurs again replaces the value of the first, and numerals beyond the
digit limit are refused. So a value that has been read once keeps its text from then on.
-/

namespace TurnScript.Json

/-! ## Sound values -/

/-- A value that can be written and is read back. -/
def IsSound (value : Json) : Prop :=
  value.IsProper ∧ value.isWritable = true

theorem isProperItems_iff {items : List Json} :
    IsProperItems items ↔ ∀ item ∈ items, item.IsProper := by
  induction items with
  | nil => simp [IsProperItems]
  | cons item rest inductionHypothesis => simp [IsProperItems, inductionHypothesis]

theorem isProperFields_iff {fields : Fields} :
    IsProperFields fields ↔ ∀ field ∈ fields, field.2.IsProper := by
  induction fields with
  | nil => simp [IsProperFields]
  | cons field rest inductionHypothesis =>
    obtain ⟨name, value⟩ := field
    rw [IsProperFields, inductionHypothesis, List.forall_mem_cons]

theorem isWritableItems_iff {items : List Json} :
    isWritableItems items = true ↔ ∀ item ∈ items, item.isWritable = true := by
  induction items with
  | nil => simp [isWritableItems]
  | cons item rest inductionHypothesis => simp [isWritableItems, inductionHypothesis]

theorem isWritableFields_iff {fields : Fields} :
    isWritableFields fields = true ↔ ∀ field ∈ fields, field.2.isWritable = true := by
  induction fields with
  | nil => simp [isWritableFields]
  | cons field rest inductionHypothesis =>
    obtain ⟨name, value⟩ := field
    rw [isWritableFields, Bool.and_eq_true, inductionHypothesis, List.forall_mem_cons]

/-- A list is sound if its items are. -/
theorem isSound_arr {items : List Json} : (arr items).IsSound ↔ ∀ item ∈ items, item.IsSound := by
  simp only [IsSound, IsProper, isWritable, isProperItems_iff, isWritableItems_iff]
  exact forall₂_and.symm

/-- An object is sound if its names are distinct and its values are sound. -/
theorem isSound_obj {fields : Fields} :
    (obj fields).IsSound ↔
      (Ordered.keys fields).Nodup ∧ ∀ field ∈ fields, field.2.IsSound := by
  simp only [IsSound, IsProper, isWritable, isProperFields_iff, isWritableFields_iff, and_assoc]
  exact and_congr_right fun _ => forall₂_and.symm

/-- Naming one more value keeps an object sound. -/
theorem isSound_put {fields : Fields} {value : Json} (name : String)
    (sound : (obj fields).IsSound) (added : value.IsSound) :
    (obj (put fields name value)).IsSound := by
  obtain ⟨distinct, values⟩ := isSound_obj.mp sound
  refine isSound_obj.mpr ⟨Ordered.nodup_keys_put name value distinct, fun field member => ?_⟩
  rcases Ordered.mem_put member with same | old
  · rwa [same]
  · exact values field old

/-! ## Reading -/

/-- What is made of a result comes from a result. -/
theorem of_map_eq_ok {ε α β : Type} {build : α → β} {outcome : Except ε α} {made : β}
    (ok : outcome.map build = .ok made) : ∃ found, outcome = .ok found ∧ build found = made := by
  cases outcome with
  | error _ => cases ok
  | ok found => exact ⟨found, rfl, Except.ok.inj ok⟩

/-- The value of some digits has no more digits than they are. -/
theorem length_digitsOf_digitsValue_le {digits : List Char} (nonempty : digits ≠ [])
    (all : ∀ c ∈ digits, isCommonDigit c = true) :
    (Text.digitsOf (Text.digitsValue digits)).length ≤ digits.length := by
  have bound : Text.digitsValue digits < 10 ^ digits.length := by
    clear nonempty
    induction digits with
    | nil => decide
    | cons c rest inductionHypothesis =>
      have later := inductionHypothesis fun c member => all c (List.mem_cons_of_mem _ member)
      have digit := all c List.mem_cons_self
      simp only [isCommonDigit, Bool.and_eq_true, decide_eq_true_eq] at digit
      have value : (Text.digitValue? c).getD 0 ≤ 9 := by
        rw [Text.digitValue?_of_le digit.1 digit.2, Option.getD_some]
        have most : c.toNat ≤ '9'.toNat := digit.2
        have nine : '9'.toNat = 57 := rfl
        have zero : '0'.toNat = 48 := rfl
        omega
      have split : Text.digitsValue (c :: rest) =
          (Text.digitValue? c).getD 0 * 10 ^ rest.length + Text.digitsValue rest := by
        have parts := Text.digitsValue_append [c] rest
        simpa [Text.digitsValue] using parts
      have product := Nat.mul_le_mul_right (10 ^ rest.length) value
      rw [split, List.length_cons, pow_succ]
      omega
  exact (Nat.length_toDigits_le_iff (by decide) (List.length_pos_of_ne_nil nonempty)).mpr bound

/-- The digits before a point are digits, and there is one. -/
theorem readWhole_delivers {s digits rest : List Char} (read : readWhole s = some (digits, rest)) :
    digits ≠ [] ∧ ∀ c ∈ digits, isCommonDigit c = true := by
  unfold readWhole at read
  split at read
  · obtain ⟨rfl, _⟩ := Prod.mk.inj (Option.some.inj read)
    exact ⟨by simp, by simp [isCommonDigit]⟩
  · dsimp only at read
    split at read
    · cases read
    · next nonempty =>
      obtain ⟨rfl, _⟩ := Prod.mk.inj (Option.some.inj read)
      exact ⟨by simpa using nonempty, fun c member => List.mem_takeWhile_imp member⟩

/-- A number that is read is sound. -/
theorem readNumber_delivers {negative : Bool} {s start rest : List Char} {value : Json}
    (read : readNumber negative s start = .ok (value, rest)) : value.IsSound := by
  unfold readNumber at read
  split at read
  · cases read
  · next digits after whole =>
    obtain ⟨nonempty, all⟩ := readWhole_delivers whole
    dsimp only at read
    split at read
    · obtain ⟨rfl, _⟩ := Prod.mk.inj (Except.ok.inj read)
      exact ⟨Binary64.ofDecimal_isNormal _ _ _, rfl⟩
    split at read
    · cases read
    · next within =>
      obtain ⟨rfl, _⟩ := Prod.mk.inj (Except.ok.inj read)
      have digitsOfValue := length_digitsOf_digitsValue_le nonempty all
      have short : (Text.digitsOf (Text.digitsValue digits)).length ≤ Text.digitLimit := by omega
      refine ⟨trivial, ?_⟩
      cases negative <;> simpa [isWritable, Text.isWritable] using short

/-- A plain value that is read is sound. -/
theorem readScalar_delivers {s rest : List Char} {value : Json}
    (read : readScalar s = .ok (value, rest)) : value.IsSound := by
  unfold readScalar at read
  split at read
  case h_1 =>
    obtain ⟨_, _, ⟨⟩⟩ := of_map_eq_ok read
    exact ⟨trivial, rfl⟩
  case h_8 | h_9 => exact readNumber_delivers read
  all_goals
    obtain ⟨rfl, _⟩ := Prod.mk.inj (Except.ok.inj read)
    exact ⟨trivial, rfl⟩

/-- What one amount of fuel delivers: sound values, sound items, and sound fields behind sound
ones. -/
def Delivers (fuel : Nat) : Prop :=
  (∀ s value rest, readValue fuel s = .ok (value, rest) → value.IsSound) ∧
    (∀ s items rest, readItems fuel s = .ok (items, rest) → (arr items).IsSound) ∧
    ∀ before s fields rest, (obj before).IsSound →
      readFields fuel before s = .ok (fields, rest) → (obj fields).IsSound

theorem isSound_arr_nil : (arr []).IsSound :=
  isSound_arr.mpr (by simp)

theorem isSound_obj_nil : (obj []).IsSound :=
  isSound_obj.mpr (by simp [Ordered.keys])

/-- One more unit of fuel delivers values that are sound. -/
theorem readValue_step {fuel : Nat} (less : Delivers fuel) {s rest : List Char} {value : Json}
    (read : readValue (fuel + 1) s = .ok (value, rest)) : value.IsSound := by
  rw [readValue.eq_def] at read
  dsimp only at read
  split at read
  · split at read
    · obtain ⟨rfl, _⟩ := Prod.mk.inj (Except.ok.inj read)
      exact isSound_arr_nil
    · obtain ⟨_, items, ⟨⟩⟩ := of_map_eq_ok read
      exact less.2.1 _ _ _ items
  · split at read
    · obtain ⟨rfl, _⟩ := Prod.mk.inj (Except.ok.inj read)
      exact isSound_obj_nil
    · obtain ⟨_, fields, ⟨⟩⟩ := of_map_eq_ok read
      exact less.2.2 _ _ _ _ isSound_obj_nil fields
  · exact readScalar_delivers read

/-- One more unit of fuel delivers items that are sound. -/
theorem readItems_step {fuel : Nat} (less : Delivers fuel) {s rest : List Char}
    {items : List Json} (read : readItems (fuel + 1) s = .ok (items, rest)) :
    (arr items).IsSound := by
  rw [readItems] at read
  split at read
  · cases read
  · next item after first =>
    have sound := less.1 _ _ _ first
    split at read
    · obtain ⟨rfl, _⟩ := Prod.mk.inj (Except.ok.inj read)
      exact isSound_arr.mpr (by simpa using sound)
    · obtain ⟨_, later, ⟨⟩⟩ := of_map_eq_ok read
      exact isSound_arr.mpr (List.forall_mem_cons.mpr
        ⟨sound, isSound_arr.mp (less.2.1 _ _ _ later)⟩)
    · cases read

/-- One more unit of fuel delivers fields that are sound. -/
theorem readFields_step {fuel : Nat} (less : Delivers fuel) {before fields : Fields}
    {s rest : List Char} (sound : (obj before).IsSound)
    (read : readFields (fuel + 1) before s = .ok (fields, rest)) : (obj fields).IsSound := by
  rw [readFields] at read
  split at read
  · cases read
  · next name inner _ =>
    split at read
    · cases read
    · next value after first =>
      have added := isSound_put name sound (less.1 _ _ _ first)
      dsimp only at read
      split at read
      · obtain ⟨rfl, _⟩ := Prod.mk.inj (Except.ok.inj read)
        exact added
      · exact less.2.2 _ _ _ _ added read
      · cases read

theorem delivers (fuel : Nat) : Delivers fuel := by
  induction fuel with
  | zero =>
    refine ⟨fun _ _ _ read => ?_, fun _ _ _ read => ?_, fun _ _ _ _ _ read => ?_⟩
    · simp [readValue] at read
    · simp [readItems] at read
    · simp [readFields] at read
  | succ fuel inductionHypothesis =>
    exact ⟨fun _ _ _ read => readValue_step inductionHypothesis read,
      fun _ _ _ read => readItems_step inductionHypothesis read,
      fun _ _ _ _ sound read => readFields_step inductionHypothesis sound read⟩

/-- Whatever is read from a text is sound. -/
theorem read_delivers {s : String} {value : Json} (ok : read s = .ok value) : value.IsSound := by
  rw [read, readChars] at ok
  split at ok
  case h_1 outcome =>
    obtain rfl := Except.ok.inj ok
    split at outcome
    · cases outcome
    · cases found : readValue (2 * s.toList.length + 2) (skipGaps s.toList) with
      | error stop => simp [found, bind, Except.bind] at outcome
      | ok result =>
        simp only [found, bind, Except.bind, pure, Except.pure] at outcome
        split at outcome
        · obtain rfl := Except.ok.inj outcome
          exact (delivers _).1 _ _ _ found
        · cases outcome
  all_goals cases ok

end TurnScript.Json
