import Mathlib.Data.Nat.Basic
import TurnScript.Json.Reader
import TurnScript.Json.Writer

/-!
# Written strings read back

The units that escapes spell out are those of the characters that were written: one for a
character of the basic plane, and a pair for one above it. No character stands for half of a pair,
so joining the units gives every character back.
-/

namespace TurnScript.Json

/-! ## Units -/

/-- The 16-bit units of a character. -/
def unitsOf (c : Char) : List Nat :=
  if c.toNat < 0x10000 then [c.toNat]
  else [0xD800 + (c.toNat - 0x10000) / 1024, 0xDC00 + (c.toNat - 0x10000) % 1024]

/-- No character lies among the halves of pairs or above the last plane. -/
theorem toNat_valid (c : Char) : (c.toNat < 0xD800 ∨ 0xDFFF < c.toNat) ∧ c.toNat < 0x110000 := by
  have valid : c.toNat < 0xD800 ∨ (0xDFFF < c.toNat ∧ c.toNat < 0x110000) := c.valid
  omega

/-- A unit that is no half of a pair is a character of its own, whatever follows. -/
theorem joinUnits_single {c : Char} (basic : c.toNat < 0x10000) (units : List Nat) :
    joinUnits (c.toNat :: units) = c :: joinUnits units := by
  have valid := toNat_valid c
  have notHigh : isHighUnit c.toNat = false := by
    simp only [isHighUnit, Bool.and_eq_false_iff, decide_eq_false_iff_not]
    omega
  have notLow : isLowUnit c.toNat = false := by
    simp only [isLowUnit, Bool.and_eq_false_iff, decide_eq_false_iff_not]
    omega
  have alone : unitChar c.toNat = c := by
    simp [unitChar, notHigh, notLow]
  cases units with
  | nil => simp [joinUnits, alone]
  | cons low rest => simp [joinUnits, notHigh, alone]

/-- A leading and a closing unit make the character that they were made for. -/
theorem joinUnits_pair {c : Char} (above : 0x10000 ≤ c.toNat) (units : List Nat) :
    joinUnits ((0xD800 + (c.toNat - 0x10000) / 1024) ::
        (0xDC00 + (c.toNat - 0x10000) % 1024) :: units) = c :: joinUnits units := by
  have valid := toNat_valid c
  have high : isHighUnit (0xD800 + (c.toNat - 0x10000) / 1024) = true := by
    simp only [isHighUnit, Bool.and_eq_true, decide_eq_true_eq]
    omega
  have low : isLowUnit (0xDC00 + (c.toNat - 0x10000) % 1024) = true := by
    simp only [isLowUnit, Bool.and_eq_true, decide_eq_true_eq]
    omega
  have joined : 0x10000 + (0xD800 + (c.toNat - 0x10000) / 1024 - 0xD800) * 1024 +
      (0xDC00 + (c.toNat - 0x10000) % 1024 - 0xDC00) = c.toNat := by
    omega
  simp only [joinUnits, high, low, Bool.and_self, if_true, joined, Char.ofNat_toNat]

/-- Joining the units of characters gives the characters. -/
theorem joinUnits_unitsOf (characters : List Char) :
    joinUnits (characters.flatMap unitsOf) = characters := by
  induction characters with
  | nil => rfl
  | cons c rest inductionHypothesis =>
    rw [List.flatMap_cons, unitsOf]
    split
    · rw [List.singleton_append, joinUnits_single ‹_›, inductionHypothesis]
    · rw [List.cons_append, List.singleton_append, joinUnits_pair (Nat.le_of_not_lt ‹_›),
        inductionHypothesis]

/-! ## Escapes -/

/-- A hexadecimal digit has the value that it is written for. -/
theorem hexValue?_hexDigit (n : Nat) : hexValue? (hexDigit n) = some (n % 16) := by
  have digits : ∀ digit < 16, hexValue? (Nat.digitChar digit) = some digit := by decide
  exact digits (n % 16) (Nat.mod_lt _ (by decide))

/-- Four hexadecimal digits have the value of the unit that they are written for. -/
theorem hexUnit?_hexDigits {n : Nat} (unit : n < 0x10000) :
    hexUnit? (hexDigit (n / 4096)) (hexDigit (n / 256)) (hexDigit (n / 16)) (hexDigit n) =
      some n := by
  simp only [hexUnit?, hexValue?_hexDigit, Option.pure_def, Option.bind_eq_bind, Option.bind_some]
  congr 1
  omega

/-- The units in front of what a reader of strings delivers. -/
def prependUnits (units : List Nat) (read : List Nat × List Char) : List Nat × List Char :=
  (units ++ read.1, read.2)

/-- The escape of a unit is read as the unit. -/
theorem readUnits_escapeUnit (opening : List Char) {n : Nat} (unit : n < 0x10000)
    {after : List Char} (nonempty : after ≠ []) :
    readUnits opening (escapeUnit n ++ after) =
      (readUnits opening after).map (prependUnits [n]) := by
  simp only [escapeUnit, List.cons_append, List.nil_append, readUnits, hexUnit?_hexDigits unit]
  rw [if_neg (by simpa using nonempty)]
  rfl

/-- An escape of one letter is read as its character. -/
theorem readUnits_simple (opening : List Char) {letter plain : Char} (notUnit : letter ≠ 'u')
    (simple : simpleEscape? letter = some plain) (after : List Char) :
    readUnits opening ('\\' :: letter :: after) =
      (readUnits opening after).map (prependUnits [plain.toNat]) := by
  rw [readUnits, if_neg notUnit, simple]
  · rfl
  · rintro _ _ _ _ _ rfl
    exact absurd rfl notUnit

/-- A plain character is read as itself. -/
theorem readUnits_plain (opening : List Char) {c : Char} (notQuote : c ≠ '"')
    (notSlash : c ≠ '\\') (plain : 32 ≤ c.toNat) (after : List Char) :
    readUnits opening (c :: after) =
      (readUnits opening after).map (prependUnits [c.toNat]) := by
  rw [readUnits, if_neg (by omega)]
  · rfl
  all_goals simp_all

/-- What is written for a character is read as the units of the character. -/
theorem readUnits_escape (opening : List Char) (c : Char) {after : List Char}
    (nonempty : after ≠ []) :
    readUnits opening (escape c ++ after) =
      (readUnits opening after).map (prependUnits (unitsOf c)) := by
  have simple {letter : Char} (notUnit : letter ≠ 'u') (small : c.toNat < 0x10000)
      (known : simpleEscape? letter = some c) :
      readUnits opening (['\\', letter] ++ after) =
        (readUnits opening after).map (prependUnits (unitsOf c)) := by
    rw [unitsOf, if_pos small]
    exact readUnits_simple opening notUnit known after
  have ofCode {code : Nat} (isCode : c.toNat = code) : Char.ofNat code = c := by
    rw [← isCode, Char.ofNat_toNat]
  unfold escape
  split
  case isTrue same => exact simple (by decide) (by simp [same]) (by simp [same, simpleEscape?])
  split
  case isTrue same => exact simple (by decide) (by simp [same]) (by simp [same, simpleEscape?])
  split
  case isTrue same => exact simple (by decide) (by simp [same]) (by simp [same, simpleEscape?])
  split
  case isTrue same => exact simple (by decide) (by simp [same]) (by simp [same, simpleEscape?])
  split
  case isTrue same => exact simple (by decide) (by simp [same]) (by simp [same, simpleEscape?])
  split
  case isTrue code =>
    exact simple (by decide) (by omega) (by simpa [simpleEscape?] using ofCode code)
  split
  case isTrue code =>
    exact simple (by decide) (by omega) (by simpa [simpleEscape?] using ofCode code)
  case isFalse notQuote notSlash _ _ _ _ _ =>
    split
    case isTrue plain =>
      rw [unitsOf, if_pos (by omega)]
      exact readUnits_plain opening notQuote notSlash plain.1 after
    split
    case isTrue basic =>
      rw [unitsOf, if_pos basic]
      exact readUnits_escapeUnit opening basic nonempty
    case isFalse above =>
      -- a pair of escapes, the second of which stands behind the first
      have valid := toNat_valid c
      have second : escapeUnit (0xDC00 + (c.toNat - 0x10000) % 1024) ++ after ≠ [] := by
        simp [escapeUnit]
      rw [unitsOf, if_neg above]
      simp only [List.append_assoc]
      rw [readUnits_escapeUnit opening (by omega) second,
        readUnits_escapeUnit opening (by omega) nonempty]
      cases readUnits opening after <;> rfl

/-! ## Strings -/

/-- What is written for characters is read as their units. -/
theorem readUnits_flatMap_escape (opening characters rest : List Char) :
    readUnits opening (characters.flatMap escape ++ '"' :: rest) =
      .ok (characters.flatMap unitsOf, rest) := by
  induction characters with
  | nil => simp [readUnits]
  | cons c characters inductionHypothesis =>
    rw [List.flatMap_cons, List.append_assoc,
      readUnits_escape opening c (List.append_ne_nil_of_right_ne_nil _ (List.cons_ne_nil _ _)),
      inductionHypothesis]
    rfl

/-- A written string is read as the string. -/
theorem readString_escape (opening characters rest : List Char) :
    readString opening (characters.flatMap escape ++ '"' :: rest) = .ok (characters, rest) := by
  simp [readString, readUnits_flatMap_escape, Except.map, joinUnits_unitsOf]

end TurnScript.Json
