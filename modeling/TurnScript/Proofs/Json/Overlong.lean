import TurnScript.Proofs.Json.Delivery

/-!
# Numerals that are refused

The reader stops at what is missing from a text, or at a numeral that has more digits than the
limit. What it has not read yet is always the end of the text, so such a numeral stands in the text
as it is: a run of digits. A text without so long a run of digits is refused for its syntax only.
-/

namespace TurnScript.Json

/-- A numeral that is refused: a run of digits in a text, longer than the limit. -/
def IsOverlong (s : List Char) (error : Text.NumeralError) : Prop :=
  ∃ digits, digits <:+: s ∧ (∀ c ∈ digits, isCommonDigit c = true) ∧
    Text.digitLimit < digits.length ∧ error = .tooLong digits.length

/-- What reading may come to: the end of the text is left, or something is missing, or a numeral in
the text is too long. -/
def StaysWithin {α : Type} (s : List Char) : Except Stop (α × List Char) → Prop
  | .ok (_, rest) => rest <:+ s
  | .error (.missing _ _) => True
  | .error (.numeral error) => IsOverlong s error

theorem IsOverlong.of_suffix {s whole : List Char} {error : Text.NumeralError}
    (overlong : IsOverlong s error) (suffix : s <:+ whole) : IsOverlong whole error := by
  obtain ⟨digits, inside, rest⟩ := overlong
  exact ⟨digits, inside.trans suffix.isInfix, rest⟩

namespace StaysWithin

variable {α β : Type} {s whole : List Char} {outcome : Except Stop (α × List Char)}

/-- Reading the end of a text stays within the text. -/
theorem of_suffix (within : StaysWithin s outcome) (suffix : s <:+ whole) :
    StaysWithin whole outcome := by
  match outcome with
  | .ok (_, _) => exact within.trans suffix
  | .error (.missing _ _) => trivial
  | .error (.numeral _) => exact IsOverlong.of_suffix within suffix

/-- Reading that goes well leaves the end of the text. -/
theorem suffix (within : StaysWithin s outcome) {value : α} {rest : List Char}
    (ok : outcome = .ok (value, rest)) : rest <:+ s := by
  subst ok
  exact within

/-- Reading that stops stays within the text whatever it was to read. -/
theorem of_error (within : StaysWithin s outcome) {stop : Stop} (stopped : outcome = .error stop) :
    StaysWithin s (.error stop : Except Stop (β × List Char)) := by
  subst stopped
  cases stop <;> exact within

/-- It does not matter what is made of the value that has been read. -/
theorem map (within : StaysWithin s outcome) (build : α × List Char → β × List Char)
    (keeps : ∀ value rest, (build (value, rest)).2 = rest) :
    StaysWithin s (outcome.map build) := by
  match outcome with
  | .ok (value, rest) =>
    have left := keeps value rest
    show (build (value, rest)).2 <:+ s
    rw [left]
    exact within
  | .error (.missing _ _) => trivial
  | .error (.numeral _) => exact within

end StaysWithin

/-! ## Plain values -/

theorem skipGaps_suffix (s : List Char) : skipGaps s <:+ s :=
  List.dropWhile_suffix _

theorem readUnits_within (opening s : List Char) : StaysWithin s (readUnits opening s) := by
  -- A string is refused for what is missing only, so the suffix is all there is to show.
  fun_induction readUnits opening s
  case case2 => exact List.suffix_cons _ _
  case case6 inductionHypothesis =>
    exact (inductionHypothesis.map _ fun _ _ => rfl).of_suffix ⟨[_, _, _, _, _, _], rfl⟩
  case case9 inductionHypothesis =>
    exact (inductionHypothesis.map _ fun _ _ => rfl).of_suffix ⟨[_, _], rfl⟩
  case case11 inductionHypothesis =>
    exact (inductionHypothesis.map _ fun _ _ => rfl).of_suffix ⟨[_], rfl⟩
  all_goals trivial

theorem readString_within (opening s : List Char) : StaysWithin s (readString opening s) :=
  (readUnits_within opening s).map _ fun _ _ => rfl

theorem readWhole_parts {s digits rest : List Char} (read : readWhole s = some (digits, rest)) :
    digits ++ rest = s := by
  unfold readWhole at read
  split at read
  · obtain ⟨rfl, rfl⟩ := Prod.mk.inj (Option.some.inj read)
    rfl
  · dsimp only at read
    split at read
    · cases read
    · obtain ⟨rfl, rfl⟩ := Prod.mk.inj (Option.some.inj read)
      exact List.takeWhile_append_dropWhile

theorem readFraction_suffix (s : List Char) : ((readFraction s).getD ([], s)).2 <:+ s := by
  unfold readFraction
  split
  · dsimp only
    split
    · exact List.suffix_rfl
    · exact (List.dropWhile_suffix _).trans (List.suffix_cons _ _)
  · exact List.suffix_rfl

theorem readExponent_suffix (s : List Char) : ((readExponent s).getD (0, s)).2 <:+ s := by
  unfold readExponent
  dsimp only
  split
  · exact List.suffix_rfl
  · next negative rest signed =>
    have inside : rest <:+ s := by
      split at signed
      case h_4 => cases signed
      all_goals
        split at signed
        · obtain ⟨_, rfl⟩ := Prod.mk.inj (Option.some.inj signed)
          simp [List.suffix_cons_iff]
        · cases signed
    split
    · exact List.suffix_rfl
    · exact (List.dropWhile_suffix _).trans inside

theorem readNumber_within (negative : Bool) (s start : List Char) :
    StaysWithin s (readNumber negative s start) := by
  unfold readNumber
  split
  · trivial
  · next digits rest whole =>
    have parts := readWhole_parts whole
    have exponent := readExponent_suffix ((readFraction rest).getD ([], rest)).2
    have left : ((readExponent ((readFraction rest).getD ([], rest)).2).getD
        (0, ((readFraction rest).getD ([], rest)).2)).2 <:+ s := by
      rw [← parts]
      exact (exponent.trans (readFraction_suffix rest)).trans (List.suffix_append _ _)
    dsimp only
    split
    · exact left
    split
    · next long =>
      exact ⟨digits, ⟨[], rest, parts⟩, (readWhole_delivers whole).2, long, rfl⟩
    · exact left

theorem readScalar_within (s : List Char) : StaysWithin s (readScalar s) := by
  unfold readScalar
  split
  case h_1 rest =>
    exact ((readString_within _ rest).map _ fun _ _ => rfl).of_suffix (List.suffix_cons _ _)
  case h_8 => exact (readNumber_within true _ _).of_suffix (List.suffix_cons _ _)
  case h_9 => exact readNumber_within false s s
  all_goals simp [StaysWithin, List.suffix_cons_iff]

/-! ## Nested values -/

theorem readName_within (s : List Char) : StaysWithin s (readName s) := by
  unfold readName
  split
  · next rest =>
    have string := readString_within ('"' :: rest) rest
    split
    · next stopped =>
      exact (string.of_error stopped).of_suffix (List.suffix_cons _ _)
    · next cs left ok =>
      have suffix := (skipGaps_suffix left).trans (string.suffix ok)
      split
      · next after shape =>
        rw [shape] at suffix
        exact ((skipGaps_suffix after).trans ((List.suffix_cons _ _).trans suffix)).trans
          (List.suffix_cons _ _)
      · trivial
  · trivial

/-- What one amount of fuel reads stays within the text. -/
def AllStaysWithin (fuel : Nat) : Prop :=
  (∀ s, StaysWithin s (readValue fuel s)) ∧ (∀ s, StaysWithin s (readItems fuel s)) ∧
    ∀ before s, StaysWithin s (readFields fuel before s)

theorem readValue_within {fuel : Nat} (less : AllStaysWithin fuel) (s : List Char) :
    StaysWithin s (readValue (fuel + 1) s) := by
  rw [readValue.eq_def]
  dsimp only
  split
  · next rest =>
    have blank := (skipGaps_suffix rest).trans (List.suffix_cons '[' rest)
    split
    · next after shape =>
      rw [shape] at blank
      exact (List.suffix_cons _ _).trans blank
    · exact ((less.2.1 _).map _ fun _ _ => rfl).of_suffix blank
  · next rest =>
    have blank := (skipGaps_suffix rest).trans (List.suffix_cons '{' rest)
    split
    · next after shape =>
      rw [shape] at blank
      exact (List.suffix_cons _ _).trans blank
    · exact ((less.2.2 _ _).map _ fun _ _ => rfl).of_suffix blank
  · exact readScalar_within s

theorem readItems_within {fuel : Nat} (less : AllStaysWithin fuel) (s : List Char) :
    StaysWithin s (readItems (fuel + 1) s) := by
  rw [readItems]
  have first := less.1 s
  split
  · next stopped => exact first.of_error stopped
  · next item rest ok =>
    have left := (skipGaps_suffix rest).trans (first.suffix ok)
    split
    · next after shape =>
      rw [shape] at left
      exact (List.suffix_cons _ _).trans left
    · next after shape =>
      rw [shape] at left
      exact ((less.2.1 _).map _ fun _ _ => rfl).of_suffix
        ((skipGaps_suffix after).trans ((List.suffix_cons _ _).trans left))
    · trivial

theorem readFields_within {fuel : Nat} (less : AllStaysWithin fuel) (before : Fields)
    (s : List Char) : StaysWithin s (readFields (fuel + 1) before s) := by
  rw [readFields]
  have named := readName_within s
  split
  · next stopped => exact named.of_error stopped
  · next name inner ok =>
    have value := (less.1 inner).of_suffix (named.suffix ok)
    split
    · next stopped => exact value.of_error stopped
    · next read rest ok =>
      have left := (skipGaps_suffix rest).trans (value.suffix ok)
      dsimp only
      split
      · next after shape =>
        rw [shape] at left
        exact (List.suffix_cons _ _).trans left
      · next after shape =>
        rw [shape] at left
        exact (less.2.2 _ _).of_suffix
          ((skipGaps_suffix after).trans ((List.suffix_cons _ _).trans left))
      · trivial

theorem allStaysWithin (fuel : Nat) : AllStaysWithin fuel := by
  induction fuel with
  | zero => simp [AllStaysWithin, StaysWithin, readValue, readItems, readFields]
  | succ fuel inductionHypothesis =>
    exact ⟨readValue_within inductionHypothesis, readItems_within inductionHypothesis,
      readFields_within inductionHypothesis⟩

/-- A text that is refused for a numeral has a run of digits that is longer than the limit. -/
theorem isOverlong_of_read {text : String} {error : Text.NumeralError}
    (refused : read text = .error (.numeral error)) : IsOverlong text.toList error := by
  rw [read, readChars] at refused
  split at refused
  · cases refused
  · simp [ReadError.locate] at refused
  · next stop outcome =>
    obtain rfl := ReadError.numeral.inj (Except.error.inj refused)
    split at outcome
    · cases outcome
    · have within := ((allStaysWithin (2 * text.toList.length + 2)).1
        (skipGaps text.toList)).of_suffix (skipGaps_suffix text.toList)
      cases found : readValue (2 * text.toList.length + 2) (skipGaps text.toList) with
      | error stop =>
        simp only [found, bind, Except.bind, Except.error.injEq] at outcome
        subst outcome
        rwa [found] at within
      | ok result =>
        simp only [found, bind, Except.bind, pure, Except.pure] at outcome
        split at outcome <;> cases outcome

/-- A text of digits is refused if there are more of them than the limit. -/
theorem read_overlong {digits : List Char} (all : ∀ c ∈ digits, isCommonDigit c = true)
    (lead : digits.head? ≠ some '0') (long : Text.digitLimit < digits.length) :
    read (String.ofList digits) = .error (.numeral (.tooLong digits.length)) := by
  obtain ⟨c, rest, rfl⟩ := List.exists_cons_of_length_pos (Nat.zero_lt_of_lt long)
  have digit := all c List.mem_cons_self
  have whole : readWhole (c :: rest) = some (c :: rest, []) := by
    have read := readWhole_digits [] (List.cons_ne_nil c rest) all lead (by simp)
    rwa [List.append_nil] at read
  have number (start : List Char) : readNumber false (c :: rest) start =
      .error (.numeral (.tooLong (c :: rest).length)) := by
    simp only [readNumber, whole, readFraction, readExponent, Option.getD_none, if_pos long]
    rfl
  have value : readValue (2 * (c :: rest).length + 2) (c :: rest) =
      .error (.numeral (.tooLong (c :: rest).length)) := by
    rw [readValue]
    · exact (readScalar_digit digit rest).trans (number _)
    · rintro _ ⟨⟩
      exact absurd digit (by decide)
    · rintro _ ⟨⟩
      exact absurd digit (by decide)
  have unmarked : c ≠ Char.ofNat 0xFEFF := (isLead_of_digit digit).2.2.2
  rw [read, String.toList_ofList, readChars, skipGaps_cons (isLead_of_digit digit).1, value]
  simp only [List.head?_cons, Option.some.injEq, unmarked, if_false]
  rfl

end TurnScript.Json
