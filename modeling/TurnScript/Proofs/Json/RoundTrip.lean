import Mathlib.Tactic.Simps.Basic
import TurnScript.Proofs.Json.Numerals
import TurnScript.Proofs.Json.Strings

/-!
# Written values read back

A text on one line and a text spread over lines differ in the blanks between their parts alone.
So both are layouts of a value, and one induction over values shows that any layout is read back:
as the value that was written, with nothing left of its text and everything after it left over.

A value reads back only if it is one that reading delivers: its floats in normal form, no name
twice in an object, and its whole numbers within the digit limit.
-/

namespace TurnScript.Ordered

variable {κ α : Type} [BEq κ] [LawfulBEq κ]

/-- A key that is new is written at the end. -/
theorem put_of_notMem {entries : List (κ × α)} {key : κ} (value : α)
    (new : key ∉ keys entries) : put entries key value = entries ++ [(key, value)] := by
  induction entries with
  | nil => rfl
  | cons head rest inductionHypothesis =>
    obtain ⟨other, old⟩ := head
    simp only [keys, List.map_cons, List.mem_cons, not_or] at new
    rw [put, if_neg (by simpa using Ne.symm new.1), inductionHypothesis new.2]
    rfl

end TurnScript.Ordered

namespace TurnScript.Json

/-! ## Values that reading delivers -/

mutual
/-- Floats are in normal form, and no object has a name twice. -/
def IsProper : Json → Prop
  | float value => value.IsNormal
  | arr items => IsProperItems items
  | obj fields => (Ordered.keys fields).Nodup ∧ IsProperFields fields
  | _ => True

/-- Every item is proper. -/
def IsProperItems : List Json → Prop
  | [] => True
  | item :: rest => IsProper item ∧ IsProperItems rest

/-- The value of every field is proper. -/
def IsProperFields : List (String × Json) → Prop
  | [] => True
  | (_, value) :: rest => IsProper value ∧ IsProperFields rest
end

/-! ## Layouts -/

/-- Where blanks stand between the parts of a nested value, by the level of the value. -/
structure Layout where
  opening : Nat → List Char
  between : Nat → List Char
  closing : Nat → List Char
  opening_gap : ∀ level, ∀ c ∈ opening level, isGap c = true
  between_gap : ∀ level, ∀ c ∈ between level, isGap c = true
  closing_gap : ∀ level, ∀ c ∈ closing level, isGap c = true

namespace Layout

mutual
/-- The text of a value at a level. -/
def chars (layout : Layout) (level : Nat) : Json → List Char
  | arr (item :: rest) =>
    '[' :: (layout.opening level ++ (layout.chars (level + 1) item ++ layout.items level rest))
  | obj ((name, value) :: rest) =>
    '{' :: (layout.opening level ++ (quote name ++ ':' :: ' ' ::
      (layout.chars (level + 1) value ++ layout.fields level rest)))
  | other => Json.chars other

/-- The text of the rest of a list at a level. -/
def items (layout : Layout) (level : Nat) : List Json → List Char
  | [] => layout.closing level ++ [']']
  | item :: rest =>
    ',' :: (layout.between level ++ (layout.chars (level + 1) item ++ layout.items level rest))

/-- The text of the rest of an object at a level. -/
def fields (layout : Layout) (level : Nat) : List (String × Json) → List Char
  | [] => layout.closing level ++ ['}']
  | (name, value) :: rest =>
    ',' :: (layout.between level ++ (quote name ++ ':' :: ' ' ::
      (layout.chars (level + 1) value ++ layout.fields level rest)))
end

/-- Everything on one line, with a blank after a comma. -/
@[simps opening between closing]
def compact : Layout where
  opening _ := []
  between _ := [' ']
  closing _ := []
  opening_gap := by simp
  between_gap := by simp [isGap]
  closing_gap := by simp

theorem breakLine_gap (level : Nat) : ∀ c ∈ breakLine level, isGap c = true := by
  intro c member
  rcases List.mem_cons.mp member with rfl | blank
  · rfl
  · rw [List.eq_of_mem_replicate blank]
    rfl

/-- Every part on a line of its own. -/
@[simps opening between closing]
def indented : Layout where
  opening level := breakLine (level + 1)
  between level := breakLine (level + 1)
  closing level := breakLine level
  opening_gap level := breakLine_gap (level + 1)
  between_gap level := breakLine_gap (level + 1)
  closing_gap := breakLine_gap

mutual
theorem chars_compact (level : Nat) : ∀ value, compact.chars level value = Json.chars value
  | null | bool _ | int _ | float _ | str _ => by simp [chars]
  | arr [] | obj [] => by simp [chars]
  | arr (item :: rest) => by
    simp [chars, Json.chars, chars_compact (level + 1) item, items_compact level rest]
  | obj ((name, value) :: rest) => by
    simp [chars, Json.chars, chars_compact (level + 1) value, fields_compact level rest]

theorem items_compact (level : Nat) : ∀ rest, compact.items level rest = charsItems rest
  | [] => rfl
  | item :: rest => by
    simp [items, charsItems, chars_compact (level + 1) item, items_compact level rest]

theorem fields_compact (level : Nat) : ∀ rest, compact.fields level rest = charsFields rest
  | [] => rfl
  | (name, value) :: rest => by
    simp [fields, charsFields, chars_compact (level + 1) value, fields_compact level rest]
end

mutual
theorem chars_indented (level : Nat) : ∀ value, indented.chars level value = spread level value
  | null | bool _ | int _ | float _ | str _ => by simp [chars, spread]
  | arr [] | obj [] => by simp [chars, spread]
  | arr (item :: rest) => by
    simp [chars, spread, chars_indented (level + 1) item, items_indented level rest]
  | obj ((name, value) :: rest) => by
    simp [chars, spread, chars_indented (level + 1) value, fields_indented level rest]

theorem items_indented (level : Nat) : ∀ rest, indented.items level rest = spreadItems level rest
  | [] => rfl
  | item :: rest => by
    simp [items, spreadItems, chars_indented (level + 1) item, items_indented level rest]

theorem fields_indented (level : Nat) :
    ∀ rest, indented.fields level rest = spreadFields level rest
  | [] => rfl
  | (name, value) :: rest => by
    simp [fields, spreadFields, chars_indented (level + 1) value,
      fields_indented level rest]
end

end Layout

/-! ## Plain values -/

/-- What is read as a number begins with a digit. -/
theorem head_of_readNumber {negative : Bool} {s start : List Char} {read : Json × List Char}
    (number : readNumber negative s start = .ok read) :
    ∃ c rest, s = c :: rest ∧ isCommonDigit c = true := by
  cases s with
  | nil => simp [readNumber, readWhole] at number
  | cons c rest =>
    refine ⟨c, rest, rfl, ?_⟩
    by_contra other
    have noWhole : readWhole (c :: rest) = none := by
      unfold readWhole
      split
      case h_1 same =>
        obtain ⟨rfl, _⟩ := List.cons.inj same
        exact absurd rfl other
      case h_2 => simp [other]
    simp [readNumber, noWhole] at number

theorem readScalar_digit {c : Char} (digit : isCommonDigit c = true) (rest : List Char) :
    readScalar (c :: rest) = readNumber false (c :: rest) (c :: rest) := by
  unfold readScalar
  split <;> simp_all +decide

theorem readScalar_minus {c : Char} (digit : isCommonDigit c = true) (rest : List Char) :
    readScalar ('-' :: c :: rest) = readNumber true (c :: rest) ('-' :: c :: rest) := by
  unfold readScalar
  split <;> simp_all +decide

/-- A number with its sign is read as the number. -/
theorem readScalar_signed (negative : Bool) {s : List Char} {read : Json × List Char}
    (number : ∀ start, readNumber negative s start = .ok read) :
    readScalar (if negative then '-' :: s else s) = .ok read := by
  obtain ⟨c, rest, rfl, digit⟩ := head_of_readNumber (number s)
  cases negative with
  | false => exact (readScalar_digit digit rest).trans (number _)
  | true => exact (readScalar_minus digit rest).trans (number _)

theorem readScalar_int {n : Int} {rest : List Char} (writable : Text.isWritable n = true)
    (closes : Closes rest) :
    readScalar ((Text.decimalText n).toList ++ rest) = .ok (int n, rest) := by
  simp only [Text.isWritable, decide_eq_true_eq] at writable
  cases n with
  | ofNat n =>
    have read := readScalar_signed false fun start =>
      readNumber_toDigits false start writable closes
    simpa [Text.decimalText] using read
  | negSucc n =>
    have read := readScalar_signed true fun start =>
      readNumber_toDigits true (n := n + 1) start writable closes
    simpa [Text.decimalText, Int.negSucc_eq] using read

theorem readScalar_float {x : Binary64} {rest : List Char} (normal : x.IsNormal)
    (closes : Closes rest) : readScalar (x.text.toList ++ rest) = .ok (float x, rest) := by
  cases x with
  | infinite negative => cases negative <;> rfl
  | nan => rfl
  | finite negative significand exponent =>
    have unsigned : (Binary64.finite false significand exponent).IsNormal := normal
    rcases Nat.eq_zero_or_pos significand with rfl | positive
    · have least : exponent = Binary64.leastExponent := normal.2.2.2 (by decide)
      have read := readScalar_signed negative fun start =>
        readNumber_zero negative start closes
      cases negative <;> simpa [Binary64.text, least] using read
    · have read := readScalar_signed negative fun start =>
        readNumber_magnitude negative start positive unsigned closes
      cases negative <;> simpa [Binary64.text, positive.ne'] using read

theorem readScalar_str (s : String) (rest : List Char) :
    readScalar (quote s ++ rest) = .ok (str s, rest) := by
  have read := readString_escape ('"' :: (s.toList.flatMap escape ++ '"' :: rest)) s.toList rest
  simp [quote, readScalar, read, Except.map]

/-- A value that is neither a list nor an object. -/
def IsPlain : Json → Prop
  | arr _ | obj _ => False
  | _ => True

/-- The text of a plain value is read as the value. -/
theorem readScalar_chars {value : Json} {rest : List Char} (plain : value.IsPlain)
    (proper : value.IsProper) (writable : value.isWritable = true) (closes : Closes rest) :
    readScalar (value.chars ++ rest) = .ok (value, rest) := by
  cases value with
  | null => rfl
  | bool value => cases value <;> rfl
  | int n => exact readScalar_int (by simpa [isWritable] using writable) closes
  | float x => exact readScalar_float (by simpa [IsProper] using proper) closes
  | str s => exact readScalar_str s rest
  | arr _ | obj _ => exact plain.elim

/-! ## Nested values -/

/-- A character that a value may begin with. -/
def IsLead (c : Char) : Prop :=
  isGap c = false ∧ c ≠ ']' ∧ c ≠ '}' ∧ c ≠ Char.ofNat 0xFEFF

theorem isLead_of_digit {c : Char} (digit : isCommonDigit c = true) : IsLead c := by
  have other (d : Char) (noDigit : isCommonDigit d = false) : c ≠ d := by
    rintro rfl
    exact absurd digit (by simp [noDigit])
  refine ⟨?_, other _ (by decide), other _ (by decide), other _ (by decide)⟩
  by_contra gap
  simp only [Bool.not_eq_false, isGap, Bool.or_eq_true, beq_iff_eq] at gap
  obtain ((rfl | rfl) | rfl) | rfl := gap <;> exact absurd digit (by decide)

/-- What is read as a plain value begins as a value does, and not as a nested one. -/
theorem lead_of_readScalar {s : List Char} {read : Json × List Char}
    (scalar : readScalar s = .ok read) :
    ∃ c rest, s = c :: rest ∧ IsLead c ∧ c ≠ '[' ∧ c ≠ '{' := by
  unfold readScalar at scalar
  split at scalar
  case h_9 =>
    obtain ⟨c, rest, rfl, digit⟩ := head_of_readNumber scalar
    refine ⟨c, rest, rfl, isLead_of_digit digit, ?_, ?_⟩ <;>
    · rintro rfl
      exact absurd digit (by decide)
  all_goals exact ⟨_, _, rfl, by simp [IsLead, isGap], by decide, by decide⟩

/-- A plain value is read with any fuel. -/
theorem readValue_of_readScalar {s : List Char} {read : Json × List Char}
    (scalar : readScalar s = .ok read) (fuel : Nat) : readValue (fuel + 1) s = .ok read := by
  obtain ⟨c, rest, rfl, _, notList, notObject⟩ := lead_of_readScalar scalar
  rw [readValue]
  · exact scalar
  · rintro _ ⟨⟩
    exact notList rfl
  · rintro _ ⟨⟩
    exact notObject rfl

/-- Nothing is skipped at a character that is no blank. -/
theorem skipGaps_cons {c : Char} (ends : isGap c = false) (rest : List Char) :
    skipGaps (c :: rest) = c :: rest := by
  simp [skipGaps, ends]

/-- Blanks before a character that is none are skipped. -/
theorem skipGaps_append (gaps : List Char) (all : ∀ c ∈ gaps, isGap c = true) {c : Char}
    (ends : isGap c = false) (rest : List Char) : skipGaps (gaps ++ c :: rest) = c :: rest := by
  rw [skipGaps, List.dropWhile_append_of_pos all]
  simp [ends]

namespace Layout

variable (layout : Layout)

/-- A closing bracket behind its blanks may follow a value. -/
theorem closes_bracket (level : Nat) {bracket : Char} (closing : bracket = ']' ∨ bracket = '}')
    (rest : List Char) : Closes (layout.closing level ++ bracket :: rest) := by
  cases blanks : layout.closing level with
  | nil =>
    rw [List.nil_append, closes_cons]
    rcases closing with rfl | rfl
    · exact .inr (.inl rfl)
    · exact .inr (.inr (.inl rfl))
  | cons blank more =>
    rw [List.cons_append, closes_cons]
    exact .inr (.inr (.inr (layout.closing_gap level blank (by simp [blanks]))))

theorem closes_items (level : Nat) (items : List Json) (rest : List Char) :
    Closes (layout.items level items ++ rest) := by
  cases items with
  | nil =>
    rw [Layout.items, List.append_assoc]
    exact layout.closes_bracket level (.inl rfl) rest
  | cons item more =>
    rw [Layout.items, List.cons_append, closes_cons]
    exact .inl rfl

theorem closes_fields (level : Nat) (fields : Fields) (rest : List Char) :
    Closes (layout.fields level fields ++ rest) := by
  cases fields with
  | nil =>
    rw [Layout.fields, List.append_assoc]
    exact layout.closes_bracket level (.inr rfl) rest
  | cons field more =>
    rw [Layout.fields, List.cons_append, closes_cons]
    exact .inl rfl

/-- Levels and blanks do not matter for plain values. -/
theorem chars_of_plain (level : Nat) {value : Json} (plain : value.IsPlain) :
    layout.chars level value = value.chars := by
  cases value <;> first | exact plain.elim | simp [Layout.chars]

/-- The text of a value that can be read begins as a value does. -/
theorem lead_chars (level : Nat) {value : Json} (proper : value.IsProper)
    (writable : value.isWritable = true) :
    ∃ c rest, layout.chars level value = c :: rest ∧ IsLead c := by
  by_cases plain : value.IsPlain
  · have read := readScalar_chars plain proper writable closes_nil
    obtain ⟨c, rest, text, lead, _⟩ := lead_of_readScalar read
    exact ⟨c, rest, by simpa [layout.chars_of_plain level plain] using text, lead⟩
  · cases value with
    | arr items =>
      have text : ∃ rest, layout.chars level (arr items) = '[' :: rest := by
        cases items <;> simp [Layout.chars, Json.chars]
      exact ⟨'[', text.choose, text.choose_spec, by simp [IsLead, isGap]⟩
    | obj fields =>
      have text : ∃ rest, layout.chars level (obj fields) = '{' :: rest := by
        cases fields <;> simp [Layout.chars, Json.chars]
      exact ⟨'{', text.choose, text.choose_spec, by simp [IsLead, isGap]⟩
    | null | bool _ | int _ | float _ | str _ => exact absurd trivial plain

/-- The name of a field is read up to its value. -/
theorem readName_quote (name : String) {c : Char} (ends : isGap c = false) (rest : List Char) :
    readName (quote name ++ ':' :: ' ' :: c :: rest) = .ok (name, c :: rest) := by
  have string := readString_escape ('"' :: (name.toList.flatMap escape ++ '"' :: ':' :: ' ' :: c ::
    rest)) name.toList (':' :: ' ' :: c :: rest)
  have colon : skipGaps (':' :: ' ' :: c :: rest) = ':' :: ' ' :: c :: rest :=
    skipGaps_cons (by decide) _
  have blank : skipGaps (' ' :: c :: rest) = c :: rest :=
    skipGaps_append [' '] (by simp [isGap]) ends rest
  simp [quote, readName, string, colon, blank]

/-- A plain value in a layout is read as the value. -/
theorem readValue_plain {value : Json} (plain : value.IsPlain) (level : Nat) {fuel : Nat}
    {rest : List Char} (proper : value.IsProper) (writable : value.isWritable = true)
    (enough : 2 * (layout.chars level value).length ≤ fuel) (closes : Closes rest) :
    readValue fuel (layout.chars level value ++ rest) = .ok (value, rest) := by
  obtain ⟨c, more, text, _⟩ := layout.lead_chars level proper writable
  obtain ⟨fuel, rfl⟩ : ∃ less, fuel = less + 1 := by
    rw [text, List.length_cons] at enough
    exact ⟨fuel - 1, by omega⟩
  rw [layout.chars_of_plain level plain]
  exact readValue_of_readScalar (readScalar_chars plain proper writable closes) fuel

mutual
/-- A value in a layout is read as the value, up to the end of its text. -/
theorem readValue_chars : ∀ (value : Json) (level fuel : Nat) (rest : List Char),
    value.IsProper → value.isWritable = true →
    2 * (layout.chars level value).length ≤ fuel → Closes rest →
    readValue fuel (layout.chars level value ++ rest) = .ok (value, rest)
  | null, level, _, _, proper, writable, enough, closes =>
    layout.readValue_plain (by trivial) level proper writable enough closes
  | bool _, level, _, _, proper, writable, enough, closes =>
    layout.readValue_plain (by trivial) level proper writable enough closes
  | int _, level, _, _, proper, writable, enough, closes =>
    layout.readValue_plain (by trivial) level proper writable enough closes
  | float _, level, _, _, proper, writable, enough, closes =>
    layout.readValue_plain (by trivial) level proper writable enough closes
  | str _, level, _, _, proper, writable, enough, closes =>
    layout.readValue_plain (by trivial) level proper writable enough closes
  | arr items, level, fuel, rest, proper, writable, enough, _ => by
    have inner := readItems_chars items
    simp only [IsProper, isWritable] at proper writable
    cases items with
    | nil =>
      obtain ⟨fuel, rfl⟩ : ∃ less, fuel = less + 1 := by
        simp [Layout.chars, Json.chars] at enough
        exact ⟨fuel - 1, by omega⟩
      have bracket : skipGaps (']' :: rest) = ']' :: rest := skipGaps_cons (by decide) rest
      simp [Layout.chars, Json.chars, readValue, bracket]
    | cons item more =>
      simp only [Layout.chars, List.length_cons, List.length_append] at enough
      obtain ⟨fuel, rfl⟩ : ∃ less, fuel = less + 1 := ⟨fuel - 1, by omega⟩
      obtain ⟨c, text, lead, notGap, notClosing, _⟩ :=
        layout.lead_chars (level + 1) proper.1 (by simp_all [isWritableItems])
      have read := inner level fuel rest proper writable item more rfl (by
        simp only [List.length_append]
        omega)
      rw [lead, List.cons_append] at read
      simp only [Layout.chars, List.cons_append, List.append_assoc, lead, readValue]
      rw [skipGaps_append _ (layout.opening_gap level) notGap]
      split
      case h_1 same =>
        obtain ⟨rfl, _⟩ := List.cons.inj same
        exact absurd rfl notClosing
      case h_2 => simp [read, Except.map]
  | obj fields, level, fuel, rest, proper, writable, enough, _ => by
    have inner := readFields_chars fields
    simp only [IsProper, isWritable] at proper writable
    cases fields with
    | nil =>
      obtain ⟨fuel, rfl⟩ : ∃ less, fuel = less + 1 := by
        simp [Layout.chars, Json.chars] at enough
        exact ⟨fuel - 1, by omega⟩
      have brace : skipGaps ('}' :: rest) = '}' :: rest := skipGaps_cons (by decide) rest
      simp [Layout.chars, Json.chars, readValue, brace]
    | cons field more =>
      obtain ⟨name, value⟩ := field
      simp only [Layout.chars, List.length_cons, List.length_append] at enough
      obtain ⟨fuel, rfl⟩ : ∃ less, fuel = less + 1 := ⟨fuel - 1, by omega⟩
      have read := inner level fuel [] rest (by simpa using proper.1) proper.2 writable name value
        more rfl (by
          simp only [List.length_append]
          omega)
      simp only [Layout.chars, List.cons_append, List.append_assoc, quote, readValue]
      rw [skipGaps_append _ (layout.opening_gap level) (by decide)]
      simp only [quote, List.cons_append, List.append_assoc, List.nil_append] at read
      simp [read, Except.map]

/-- The items of a list in a layout are read as the items, up to the end of their text. -/
theorem readItems_chars : ∀ (items : List Json) (level fuel : Nat) (rest : List Char),
    IsProperItems items → isWritableItems items = true →
    ∀ item more, items = item :: more →
    2 * (layout.chars (level + 1) item ++ layout.items level more).length < fuel →
    readItems fuel (layout.chars (level + 1) item ++ (layout.items level more ++ rest)) =
      .ok (items, rest)
  | [], _, _, _, _, _, _, _, empty, _ => by cases empty
  | item :: more, level, fuel, rest, proper, writable, _, _, rfl, enough => by
    have first := readValue_chars item
    have later := readItems_chars more
    simp only [isWritableItems, Bool.and_eq_true] at writable
    simp only [List.length_append] at enough
    obtain ⟨fuel, rfl⟩ : ∃ less, fuel = less + 1 := ⟨fuel - 1, by omega⟩
    rw [readItems, first (level + 1) fuel _ proper.1 writable.1 (by omega)
      (layout.closes_items level more rest)]
    cases more with
    | nil =>
      simp only [Layout.items, List.append_assoc, List.singleton_append]
      rw [skipGaps_append _ (layout.closing_gap level) (by decide)]
      rfl
    | cons second more =>
      simp only [Layout.items, List.length_cons, List.length_append] at enough
      obtain ⟨c, text, lead, notGap, _⟩ :=
        layout.lead_chars (level + 1) proper.2.1 (by simp_all [isWritableItems])
      have read := later level fuel rest proper.2 writable.2 second more rfl (by
        simp only [List.length_append]
        omega)
      have comma := skipGaps_cons (c := ',') (by decide) (layout.between level ++
        (layout.chars (level + 1) second ++ (layout.items level more ++ rest)))
      rw [lead, List.cons_append] at read
      simp only [Layout.items, List.cons_append, List.append_assoc, comma]
      rw [lead, List.cons_append, skipGaps_append _ (layout.between_gap level) notGap, read]
      rfl

/-- The fields of an object in a layout are read as the fields, behind those read before and up to
the end of their text. -/
theorem readFields_chars : ∀ (fields : Fields) (level fuel : Nat) (before : Fields)
    (rest : List Char), (Ordered.keys (before ++ fields)).Nodup →
    IsProperFields fields → isWritableFields fields = true →
    ∀ name value more, fields = (name, value) :: more →
    2 * (layout.chars (level + 1) value ++ layout.fields level more).length < fuel →
    readFields fuel before (quote name ++ ':' :: ' ' ::
        (layout.chars (level + 1) value ++ (layout.fields level more ++ rest))) =
      .ok (before ++ fields, rest)
  | [], _, _, _, _, _, _, _, _, _, _, empty, _ => by cases empty
  | (name, value) :: more, level, fuel, before, rest, distinct, proper, writable, _, _, _, rfl,
      enough => by
    have first := readValue_chars value
    have later := readFields_chars more
    simp only [isWritableFields, Bool.and_eq_true] at writable
    simp only [List.length_append] at enough
    obtain ⟨fuel, rfl⟩ : ∃ less, fuel = less + 1 := ⟨fuel - 1, by omega⟩
    have new : name ∉ Ordered.keys before := by
      simp only [Ordered.keys, List.map_append, List.map_cons, List.nodup_append] at distinct
      exact fun old => distinct.2.2 name old name (by simp) rfl
    have value := first (level + 1) fuel _ proper.1 writable.1 (by omega)
      (layout.closes_fields level more rest)
    obtain ⟨c, text, lead, notGap, _⟩ := layout.lead_chars (level + 1) proper.1 writable.1
    rw [readFields, lead, List.cons_append, readName_quote name notGap]
    rw [lead, List.cons_append] at value
    simp only [value, put, Ordered.put_of_notMem _ new]
    cases more with
    | nil =>
      simp only [Layout.fields, List.append_assoc, List.singleton_append]
      rw [skipGaps_append _ (layout.closing_gap level) (by decide)]
      rfl
    | cons second more =>
      obtain ⟨second, next⟩ := second
      simp only [Layout.fields, List.length_cons, List.length_append] at enough
      have read := later level fuel (before ++ [(name, _)]) rest (by simpa using distinct) proper.2
        writable.2 second next more rfl (by
          simp only [List.length_append]
          omega)
      have comma := skipGaps_cons (c := ',') (by decide) (layout.between level ++
        (quote second ++ ':' :: ' ' :: (layout.chars (level + 1) next ++
          (layout.fields level more ++ rest))))
      simp only [Layout.fields, List.cons_append, List.append_assoc, comma]
      have quoteLead : quote second = '"' :: (second.toList.flatMap escape ++ ['"']) := rfl
      rw [quoteLead, List.cons_append, skipGaps_append _ (layout.between_gap level) (by decide),
        ← List.cons_append, ← quoteLead, read]
      simp
end

/-- A text in a layout is read as the value that it was written for. -/
theorem readChars_chars {value : Json} (proper : value.IsProper)
    (writable : value.isWritable = true) : readChars (layout.chars 0 value) = .ok value := by
  obtain ⟨c, rest, lead, notGap, _, _, unmarked⟩ := layout.lead_chars 0 proper writable
  have read := layout.readValue_chars value 0 (2 * (layout.chars 0 value).length + 2) [] proper
    writable (by omega) closes_nil
  rw [List.append_nil, lead] at read
  rw [lead, readChars, skipGaps_cons notGap, read]
  simp only [List.head?_cons, Option.some.injEq, unmarked, if_false]
  rfl

end Layout

/-- A value that is written on one line is read back. -/
theorem read_text {value : Json} (proper : value.IsProper) (writable : value.isWritable = true) :
    read value.text = .ok value := by
  rw [read, text, String.toList_ofList, ← Layout.chars_compact 0 value]
  exact Layout.compact.readChars_chars proper writable

/-- A value that is written over lines is read back. -/
theorem read_indentedText {value : Json} (proper : value.IsProper)
    (writable : value.isWritable = true) : read value.indentedText = .ok value := by
  rw [read, indentedText, String.toList_ofList, ← Layout.chars_indented 0 value]
  exact Layout.indented.readChars_chars proper writable

end TurnScript.Json
