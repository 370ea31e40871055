import TurnScript.Proofs.Condition.References
import TurnScript.Proofs.Dice.Throws
import TurnScript.Proofs.Json.Delivery

/-!
# Written formulas and what they roll

A formula is written as a whole number, or as a number of dice of a number of sides and perhaps a
modifier at the end. Exactly the texts of this grammar are taken apart, and every other one is
refused before the first roll. A whole number is its own result. Dice ask their source for one roll
of their sides each, twice as many if critical, and the modifier is added once, so that the result
without it lies between one and all sides for each roll.
-/

namespace TurnScript

namespace Text

/-! ## Whole numbers -/

/-- A numeral that is not too long to be read. -/
structure IsReadable (digits : List Char) : Prop where
  numeral : IsNumeral digits
  short : digits.length ≤ digitLimit

/-- How whole numbers are written: decimal digits of any scripts, behind at most one sign. -/
inductive IsInteger : List Char → Int → Prop where
  | unsigned {digits : List Char} (readable : IsReadable digits) :
      IsInteger digits (digitsValue digits)
  | positive {digits : List Char} (readable : IsReadable digits) :
      IsInteger ('+' :: digits) (digitsValue digits)
  | negative {digits : List Char} (readable : IsReadable digits) :
      IsInteger ('-' :: digits) (-digitsValue digits)

theorem readDigits_eq_ok_iff_isReadable {whole digits : List Char} {n : Nat} :
    readDigits whole digits = .ok n ↔ IsReadable digits ∧ n = digitsValue digits := by
  rw [readDigits_eq_ok_iff]
  constructor
  · rintro ⟨numeral, short, value⟩
    exact ⟨⟨numeral, short⟩, value⟩
  · rintro ⟨⟨numeral, short⟩, value⟩
    exact ⟨numeral, short, value⟩

/-- No sign is a digit, nor the name of one. -/
theorem isDigitName_of_isSign {c : Char} (sign : Formula.isSign c = true) :
    isDigitName c = false := by
  simp only [Formula.isSign, Bool.or_eq_true, beq_iff_eq] at sign
  rcases sign with rfl | rfl <;> decide

theorem IsNumeral.isDigitName {digits : List Char} (numeral : IsNumeral digits) :
    ∀ c ∈ digits, isDigitName c = true :=
  fun c member => isDigitName_of_isDigit (numeral.2 c member)

theorem readNumeral_eq_ok_iff {s : List Char} {value : Int} :
    readNumeral s = .ok value ↔ IsInteger s value := by
  constructor
  · intro read
    unfold readNumeral at read
    split at read
    all_goals
      obtain ⟨n, digits, rfl⟩ := Json.of_map_eq_ok read
      obtain ⟨readable, rfl⟩ := readDigits_eq_ok_iff_isReadable.mp digits
    · exact .positive readable
    · exact .negative readable
    · exact .unsigned readable
  · rintro (readable | readable | readable)
    · rw [readNumeral_of_names readable.numeral.isDigitName,
        readDigits_eq_ok_iff_isReadable.mpr ⟨readable, rfl⟩]
      rfl
    all_goals
      rw [readNumeral, readDigits_eq_ok_iff_isReadable.mpr ⟨readable, rfl⟩]
      rfl

end Text

namespace Formula

/-! ## The grammar -/

/-- How a modifier is written, or its absence. -/
inductive IsEnding : List Char → Option Modifier → Prop where
  | nothing : IsEnding [] none
  | modifier {sign : Char} {value : List Char} (signed : isSign sign = true) (nonempty : value ≠ [])
      (word : ∀ c ∈ value, Text.isWord c = true) :
      IsEnding (sign :: value) (some ⟨sign == '-', value⟩)

/-- How formulas are written. -/
inductive IsWritten : List Char → Formula → Prop where
  | constant {s : List Char} {value : Int} (integer : Text.IsInteger s value) :
      IsWritten s (.constant value)
  | dice {count sides ending : List Char} {modifier : Option Modifier}
      (counted : Text.IsReadable count) (sided : Text.IsReadable sides)
      (ends : IsEnding ending modifier) :
      IsWritten (count ++ 'd' :: (sides ++ ending))
        (.dice (Text.digitsValue count) (Text.digitsValue sides) modifier)

variable {s : List Char} {formula : Formula}

theorem modifier?_eq_some_iff {ending : List Char} {modifier : Option Modifier} :
    modifier? ending = some modifier ↔ IsEnding ending modifier := by
  constructor
  · intro taken
    unfold modifier? at taken
    split at taken
    · cases taken
      exact .nothing
    · next sign value =>
      split at taken
      · next fits =>
        cases taken
        simp only [Bool.and_eq_true, Bool.not_eq_true', List.isEmpty_eq_false_iff,
          List.all_eq_true] at fits
        exact .modifier fits.1.1 fits.1.2 fits.2
      · cases taken
  · rintro (_ | ⟨signed, nonempty, word⟩)
    · rfl
    · simp [modifier?, signed, nonempty, List.all_eq_true.mpr word]

/-- A modifier does not begin with a digit. -/
theorem IsEnding.ends {ending : List Char} {modifier : Option Modifier}
    (ends : IsEnding ending modifier) : ∀ c ∈ ending.head?, Text.isDigit c = false := by
  cases ends with
  | nothing => simp
  | modifier signed nonempty word =>
    intro c first
    obtain rfl := Option.some.inj first
    by_contra digit
    have named := Text.isDigitName_of_isDigit (Bool.eq_true_of_not_eq_false digit)
    rw [Text.isDigitName_of_isSign signed] at named
    cases named

theorem split?_eq_some_iff {count sides : List Char} {modifier : Option Modifier} :
    split? s = some (count, sides, modifier) ↔
      ∃ ending, s = count ++ 'd' :: (sides ++ ending) ∧ Text.IsNumeral count ∧
        Text.IsNumeral sides ∧ IsEnding ending modifier := by
  constructor
  · intro taken
    unfold split? at taken
    dsimp only at taken
    split at taken
    · next rest behind =>
      split at taken
      · cases taken
      · next both =>
        obtain ⟨other, modified, same⟩ := Option.map_eq_some_iff.mp taken
        cases same
        simp only [Bool.or_eq_true, List.isEmpty_iff, not_or] at both
        refine ⟨rest.dropWhile Text.isDigit, ?_, ⟨both.1, ?_⟩, ⟨both.2, ?_⟩,
          modifier?_eq_some_iff.mp modified⟩
        · rw [List.takeWhile_append_dropWhile, ← behind, List.takeWhile_append_dropWhile]
        · exact fun c member => List.mem_takeWhile_imp member
        · exact fun c member => List.mem_takeWhile_imp member
    · cases taken
  · rintro ⟨ending, rfl, counted, sided, ends⟩
    have letter : ∀ c ∈ ('d' :: (sides ++ ending)).head?, Text.isDigit c = false := by
      intro c first
      obtain rfl := Option.some.inj first
      decide
    have before := Text.takeWhile_run counted.2 letter
    have behind := Text.dropWhile_run counted.2 letter
    have first := Text.takeWhile_run sided.2 ends.ends
    have last := Text.dropWhile_run sided.2 ends.ends
    have countEmpty := List.isEmpty_eq_false_iff.mpr counted.1
    have sidesEmpty := List.isEmpty_eq_false_iff.mpr sided.1
    unfold split?
    simp only [before, behind, first, last, countEmpty, sidesEmpty,
      modifier?_eq_some_iff.mpr ends, Bool.or_self, Bool.false_eq_true, ↓reduceIte, Option.map_some]

/-- Signs are passed over, and digits are not. -/
theorem dropWhile_isSign {digits : List Char} (numeral : Text.IsNumeral digits)
    (rest : List Char) :
    (digits ++ rest).dropWhile isSign = digits ++ rest := by
  obtain ⟨c, others, rfl⟩ := List.exists_cons_of_ne_nil numeral.1
  have named := numeral.isDigitName c List.mem_cons_self
  have unsigned : isSign c = false := by
    by_contra sign
    rw [Text.isDigitName_of_isSign (Bool.eq_true_of_not_eq_false sign)] at named
    cases named
  rw [List.cons_append, List.dropWhile_cons_of_neg (by simp [unsigned])]

theorem looksConstant_of_isInteger {value : Int} (integer : Text.IsInteger s value) :
    looksConstant s = true := by
  have digits : ∀ digits : List Char, Text.IsReadable digits →
      digits.dropWhile isSign = digits ∧
        (!digits.isEmpty && digits.all Text.isDigitName) = true := by
    intro digits readable
    have kept := dropWhile_isSign readable.numeral []
    rw [List.append_nil] at kept
    exact ⟨kept, by simp [readable.numeral.1, List.all_eq_true.mpr readable.numeral.isDigitName]⟩
  unfold looksConstant
  cases integer with
  | unsigned readable =>
    obtain ⟨kept, named⟩ := digits _ readable
    simpa only [kept] using named
  | positive readable =>
    obtain ⟨kept, named⟩ := digits _ readable
    rw [List.dropWhile_cons_of_pos (by decide), kept]
    exact named
  | negative readable =>
    obtain ⟨kept, named⟩ := digits _ readable
    rw [List.dropWhile_cons_of_pos (by decide), kept]
    exact named

theorem not_looksConstant_of_dice {count rest : List Char} (counted : Text.IsNumeral count) :
    looksConstant (count ++ 'd' :: rest) = false := by
  unfold looksConstant
  rw [dropWhile_isSign counted]
  have letter : Text.isDigitName 'd' = false := by decide
  simp [letter]

/-- The texts that are taken apart are those of the grammar, blanks around them aside. -/
theorem parse_eq_ok_iff {text : String} :
    parse text = .ok formula ↔ IsWritten (Text.trimBlank text.toList) formula := by
  generalize trimmed : Text.trimBlank text.toList = s
  unfold parse
  rw [trimmed]
  dsimp only
  constructor
  · intro taken
    split at taken
    · split at taken
      · next value read =>
        cases taken
        exact .constant (Text.readNumeral_eq_ok_iff.mp read)
      · cases taken
    · split at taken
      · cases taken
      · next count sides modifier parts =>
        obtain ⟨ending, rfl, -, -, ends⟩ := split?_eq_some_iff.mp parts
        split at taken
        · next n m counted sided =>
          cases taken
          obtain ⟨countReadable, rfl⟩ := Text.readDigits_eq_ok_iff_isReadable.mp counted
          obtain ⟨sidesReadable, rfl⟩ := Text.readDigits_eq_ok_iff_isReadable.mp sided
          exact .dice countReadable sidesReadable ends
        · cases taken
        · cases taken
  · rintro (integer | ⟨counted, sided, ends⟩)
    · rw [if_pos (looksConstant_of_isInteger integer), Text.readNumeral_eq_ok_iff.mpr integer]
    · rw [if_neg (by simp [not_looksConstant_of_dice counted.numeral]),
        split?_eq_some_iff.mpr ⟨_, rfl, counted.numeral, sided.numeral, ends⟩]
      dsimp only
      rw [Text.readDigits_eq_ok_iff_isReadable.mpr ⟨counted, rfl⟩,
        Text.readDigits_eq_ok_iff_isReadable.mpr ⟨sided, rfl⟩]

/-- A text that is not taken apart is malformed, or has a numeral that cannot be read. -/
theorem of_parse_eq_error {text : String} {error : FormulaError}
    (refused : parse text = .error error) :
    error = .malformed (String.ofList (Text.trimBlank text.toList)) ∨
      ∃ numeral, error = .numeral numeral := by
  unfold parse at refused
  dsimp only at refused
  split at refused
  · split at refused
    · cases refused
    · cases refused
      exact .inr ⟨_, rfl⟩
  · split at refused
    · cases refused
      exact .inl rfl
    · split at refused
      · cases refused
      · cases refused
        exact .inr ⟨_, rfl⟩
      · cases refused
        exact .inr ⟨_, rfl⟩

end Formula

/-! ## The worth of a modifier -/

namespace Modifier

variable {m : Modifier} {values : Option (List (String × Int))}

/-- A number with the sign of a modifier. -/
def signed (m : Modifier) (n : Int) : Int :=
  if m.negative then -n else n

/-- What a modifier adds for a roller with named values: its digits, or the value of its name in
capitals, zero if there is none of that name. -/
inductive Adds (values : Option (List (String × Int))) (m : Modifier) : Int → Prop where
  | digits (readable : Text.IsReadable m.value) :
      m.Adds values (m.signed (Text.digitsValue m.value))
  | name {given : List (String × Int)} (named : ∃ c ∈ m.value, Text.isDigitName c = false)
      (known : values = some given) :
      m.Adds values
        (m.signed ((Ordered.get? given (Text.inCapitals (String.ofList m.value))).getD 0))

theorem Adds.amount_eq {n : Int} (adds : m.Adds values n) :
    Formula.Modifier.amount m values = .ok n := by
  unfold Formula.Modifier.amount
  cases adds with
  | digits readable =>
    have names := readable.numeral.isDigitName
    rw [if_pos (List.all_eq_true.mpr names),
      Text.readNumeral_eq_ok_iff.mpr (.unsigned readable)]
    rfl
  | @name given named known =>
    obtain ⟨c, member, plain⟩ := named
    have notAll : ¬ m.value.all Text.isDigitName = true := by
      intro all
      rw [List.all_eq_true.mp all c member] at plain
      cases plain
    subst known
    rw [if_neg notAll]
    rfl

end Modifier

namespace Formula

variable {values : Option (List (String × Int))} {critical : Bool} {dice after : Dice}

/-- What the end of a formula adds: its modifier, or nothing. -/
inductive Adds (values : Option (List (String × Int))) : Option Modifier → Int → Prop where
  | nothing : Adds values none 0
  | modifier {m : Modifier} {n : Int} (adds : m.Adds values n) : Adds values (some m) n

/-- How often a critical or a plain formula throws its dice. -/
def throwsOf (count : Nat) (critical : Bool) : Nat :=
  if critical then 2 * count else count

/-- The dice of a formula come to what they show and its modifier. -/
theorem comes_of_throws {count sides : Nat} {modifier : Option Modifier} {n : Int}
    {shown : List Int} (adds : Adds values modifier n) (throws : dice.Throws sides shown after)
    (length : shown.length = throwsOf count critical) :
    Comes values critical (.dice count sides modifier) dice (Dice.sum shown + n) after := by
  have length : shown.length = if critical then count * 2 else count := by
    rw [length, throwsOf, Nat.mul_comm]
  cases adds with
  | nothing =>
    rw [Int.add_zero]
    exact .plain throws length
  | modifier adds => exact .modified throws length adds.amount_eq

end Formula

/-! ## Sources that serve -/

/-- Whether a source answers a number of throws of a die, each with one of its sides. A generator
always does. -/
def RollSource.Serves (sides : Int) (count : Nat) : RollSource → Prop
  | .listed rolls => count ≤ rolls.length ∧ ∀ roll ∈ rolls.take count, 1 ≤ roll ∧ roll ≤ sides
  | .generator _ => True

namespace Dice

variable {dice : Dice} {sides : Int}

/-- A source that serves answers a throw with one of the sides, which is noted, and goes on to
serve. -/
theorem exists_roll {count : Nat} (some : 1 ≤ sides)
    (serves : dice.source.Serves sides (count + 1)) :
    ∃ shown next, dice.roll 1 sides = (.ok shown, next) ∧ (1 ≤ shown ∧ shown ≤ sides) ∧
      next.source.Serves sides count ∧ next.asked = sides :: dice.asked := by
  unfold roll
  rw [if_neg (Int.not_lt.mpr some)]
  cases source : dice.source with
  | listed rolls =>
    rw [source] at serves
    obtain ⟨enough, fair⟩ := serves
    cases rolls with
    | nil => cases enough
    | cons value rest =>
      rw [List.take_succ_cons] at fair
      refine ⟨value, _, rfl, fair value List.mem_cons_self,
        ⟨Nat.le_of_succ_le_succ enough, ?_⟩, rfl⟩
      exact fun roll member => fair roll (List.mem_cons_of_mem _ member)
  | generator state =>
    refine ⟨_, _, rfl, ?_, trivial, rfl⟩
    have least := Int.emod_nonneg (RollSource.nextState state / 65536 : Nat)
      (show sides - 1 + 1 ≠ 0 by omega)
    have most := Int.emod_lt_of_pos (RollSource.nextState state / 65536 : Nat)
      (show 0 < sides - 1 + 1 by omega)
    omega

/-- A source that serves answers all its throws, one after the other. -/
theorem exists_throws {count : Nat} (some : 1 ≤ sides)
    (serves : dice.source.Serves sides count) :
    ∃ shown after, Throws sides dice shown after ∧ shown.length = count ∧
      (∀ roll ∈ shown, 1 ≤ roll ∧ roll ≤ sides) ∧
      after.asked = List.replicate count sides ++ dice.asked := by
  induction count generalizing dice with
  | zero => exact ⟨[], dice, .none dice, rfl, fun _ member => absurd member List.not_mem_nil, rfl⟩
  | succ count inductionHypothesis =>
    obtain ⟨first, next, rolled, fair, goesOn, noted⟩ := exists_roll some serves
    obtain ⟨others, after, throws, length, rest, asked⟩ := inductionHypothesis goesOn
    refine ⟨first :: others, after, .next rolled throws, congrArg Nat.succ length,
      List.forall_mem_cons.mpr ⟨fair, rest⟩, ?_⟩
    rw [asked, noted, List.replicate_succ', List.append_assoc, List.singleton_append]

/-- What dice show comes to at least one and at most all sides for each of them. -/
theorem sum_bounds {shown : List Int} (fair : ∀ roll ∈ shown, 1 ≤ roll ∧ roll ≤ sides) :
    shown.length ≤ sum shown ∧ sum shown ≤ sides * shown.length := by
  induction shown with
  | nil => exact ⟨Int.le_refl 0, by simp [sum]⟩
  | cons first others inductionHypothesis =>
    obtain ⟨⟨least, most⟩, rest⟩ := List.forall_mem_cons.mp fair
    obtain ⟨lower, upper⟩ := inductionHypothesis rest
    have split : sum (first :: others) = first + sum others := rfl
    rw [split, List.length_cons, Nat.cast_succ, mul_add, mul_one]
    constructor <;> omega

/-- A written whole number is its own result, without a roll. Written dice of at least one side,
with a modifier that adds something, ask a source that serves for as many rolls as there are dice,
or for twice as many if critical, each of one to all sides; they come to the sum of these and what
the modifier adds, once. Every other text is refused before the first roll. -/
theorem formulas_are_rolled (dice : Dice) (text : String)
    (values : Option (List (String × Int))) (critical : Bool) :
    let written := Text.trimBlank text.toList
    (∀ value, Formula.IsWritten written (.constant value) →
      dice.rollFormula text values critical = (.ok value, dice)) ∧
    (∀ count sides modifier added, Formula.IsWritten written (.dice count sides modifier) →
      1 ≤ sides → Formula.Adds values modifier added →
      let throws := Formula.throwsOf count critical
      dice.source.Serves sides throws →
      ∃ shown after total, dice.rollFormula text values critical = (.ok total, after) ∧
        dice.Throws sides shown after ∧ shown.length = throws ∧
        (∀ roll ∈ shown, 1 ≤ roll ∧ roll ≤ sides) ∧
        after.asked = List.replicate throws (sides : Int) ++ dice.asked ∧
        total = sum shown + added ∧ throws ≤ total - added ∧ total - added ≤ sides * throws) ∧
    ((∀ formula, ¬ Formula.IsWritten written formula) →
      ∃ error, dice.rollFormula text values critical = (.error error, dice) ∧
        (error = .malformed (String.ofList written) ∨ ∃ numeral, error = .numeral numeral)) := by
  intro written
  refine ⟨?_, ?_, ?_⟩
  · intro value isWritten
    rw [rollFormula, Formula.parse_eq_ok_iff.mpr isWritten]
    rfl
  · intro count sides modifier added isWritten some adds throws serves
    have whole : 1 ≤ (sides : Int) := Nat.one_le_cast.mpr some
    obtain ⟨shown, after, thrown, length, fair, asked⟩ := exists_throws whole serves
    have bounds := sum_bounds fair
    have comes := Formula.comes_of_throws adds thrown length
    refine ⟨shown, after, sum shown + added, ?_, thrown, length, fair, asked, rfl, ?_⟩
    · exact rollFormula_eq_ok_iff.mpr ⟨_, Formula.parse_eq_ok_iff.mpr isWritten, comes⟩
    · rw [Int.add_sub_cancel, ← length]
      exact bounds
  · intro unwritten
    rw [rollFormula]
    cases parsed : Formula.parse text with
    | ok formula => exact absurd (Formula.parse_eq_ok_iff.mp parsed) (unwritten formula)
    | error error => exact ⟨error, rfl, Formula.of_parse_eq_error parsed⟩

/-- Dice that have been written down in advance. -/
def writtenDown : Dice :=
  { source := .listed [5, 1, 6, 2, 4] }

/-- A critical roll of two dice and a named modifier, a number below zero between blanks, and a text
that is no formula. -/
theorem formulas_are_rolled_critical :
    Formula.IsWritten (Text.trimBlank "2d6-str".toList) (.dice 2 6 (some ⟨true, ['s', 't', 'r']⟩)) ∧
      Formula.Adds (some [("STR", 3)]) (some ⟨true, ['s', 't', 'r']⟩) (-3) ∧
      writtenDown.source.Serves 6 4 ∧
      (∃ after, writtenDown.rollFormula "2d6-str" (some [("STR", 3)]) true = (.ok 11, after) ∧
        after.asked = [6, 6, 6, 6]) ∧
      writtenDown.rollFormula " -4 " none false = (.ok (-4), writtenDown) ∧
      ∃ error, writtenDown.rollFormula "fireball" none false = (.error error, writtenDown) := by
  have isWritten : Formula.IsWritten (Text.trimBlank "2d6-str".toList)
      (.dice 2 6 (some ⟨true, ['s', 't', 'r']⟩)) :=
    Formula.parse_eq_ok_iff.mp (by decide +kernel)
  have adds : Formula.Adds (some [("STR", 3)]) (some ⟨true, ['s', 't', 'r']⟩) (-3) :=
    .modifier (@Modifier.Adds.name (some [("STR", 3)]) ⟨true, ['s', 't', 'r']⟩ [("STR", 3)]
      ⟨'s', by decide, by decide⟩ rfl)
  have serves : writtenDown.source.Serves 6 4 := ⟨by decide, by decide⟩
  obtain ⟨-, rolled, -⟩ := formulas_are_rolled writtenDown "2d6-str" (some [("STR", 3)]) true
  obtain ⟨constant, -, -⟩ := formulas_are_rolled writtenDown " -4 " none false
  obtain ⟨-, -, refused⟩ := formulas_are_rolled writtenDown "fireball" none false
  refine ⟨isWritten, adds, serves, ?_, ?_, ?_⟩
  · obtain ⟨shown, after, total, comes, -, -, -, asked, -⟩ :=
      rolled 2 6 _ _ isWritten (by decide) adds serves
    have value : (writtenDown.rollFormula "2d6-str" (some [("STR", 3)]) true).1 = .ok 11 := by
      decide +kernel
    rw [comes] at value
    obtain rfl : total = 11 := Except.ok.inj value
    exact ⟨after, comes, asked⟩
  · exact constant (-4) (Formula.parse_eq_ok_iff.mp (by decide +kernel))
  · obtain ⟨error, told, -⟩ := refused (by
      intro formula isWritten
      have parsed := Formula.parse_eq_ok_iff.mpr isWritten
      have malformed : Formula.parse "fireball" = .error (.malformed "fireball") := by
        decide +kernel
      rw [malformed] at parsed
      cases parsed)
    exact ⟨error, told⟩

end Dice
end TurnScript
