import TurnScript.Proofs.Store.Refusals

/-!
# What a row is loaded as

The text of a row may have been written by anyone. It is loaded as a queue if it is an array of
records of actions, and refused as a queue that cannot be loaded if it is not. There are three ways
past that. A text of a value that holds nothing, but is no array, passes as a queue without actions.
A numeral of more digits than the limit stops the reader in a way of its own. And the column keeps a
text that is a plain number as a number, which is then no text to be read.
-/

namespace TurnScript

open Record

/-! ## Texts in the column -/

/-- A text is that of a queue: an array of records of actions. -/
def IsQueueText (text : String) : Prop :=
  ∃ records, Json.read text = .ok (.arr records) ∧
    ∀ record ∈ records, Action.IsReadable record

/-- A text is that of a value that holds nothing and is no array. -/
def IsVoidText (text : String) : Prop :=
  ∃ value, Json.read text = .ok value ∧ value.isTruthy = false ∧ ∀ records, value ≠ .arr records

/-- A text stops the reader at a numeral of more digits than the limit. -/
def IsOverlongText (text : String) : Prop :=
  ∃ error, Json.read text = .error (.numeral error)

/-- A text is a plain number, so the column keeps it as a number. -/
def IsNumberText (text : String) : Prop :=
  (Cell.number? text.toList).isSome = true

/-- A text gets past the refusal of what is no queue. -/
def GetsPast (text : String) : Prop :=
  IsVoidText text ∨ IsOverlongText text ∨ IsNumberText text

/-- A value that holds nothing and is no array is no queue. -/
theorem IsVoidText.not_isQueueText {text : String} (isVoid : IsVoidText text) :
    ¬ IsQueueText text := by
  obtain ⟨value, read, -, noArray⟩ := isVoid
  rintro ⟨records, isArray, -⟩
  exact noArray records (Except.ok.inj (read.symm.trans isArray))

/-- The column keeps a plain number as no text. -/
theorem Cell.number?_ne_text {s : List Char} {cell : Cell} (number : Cell.number? s = some cell)
    (text : String) : cell ≠ .text text := by
  have ofFloat (value : Binary64) : Cell.ofFloat value ≠ .text text := by
    unfold Cell.ofFloat
    rintro same
    split at same
    · split at same
      · cases same
      · cases same
    · cases same
  have whole (value : Int) : Cell.whole value ≠ .text text := by
    rintro ⟨⟩
  simp only [Cell.number?] at number
  -- Every branch gives no number, a whole one, or what is kept of a float.
  repeat' split at number
  all_goals
    first
    | exact Option.some.inj number ▸ whole _
    | exact Option.some.inj number ▸ ofFloat _
    | cases number

/-- The column keeps every other text as it is. -/
theorem Cell.kept_text {text : String} (other : ¬ IsNumberText text) :
    (Cell.text text).kept = .text text := by
  have none : Cell.number? text.toList = none := by
    simpa [IsNumberText] using other
  rw [Cell.kept, none, Option.getD_none]

/-! ## Lists of records -/

namespace Action

/-- An action that has been read is read from its record with some id at hand. -/
theorem readWith_of_read {supply : IdSupply} {record : Json} {a : Action}
    (ok : (read supply record).1 = .ok a) : ∃ fresh, readWith fresh record = .ok a := by
  unfold read at ok
  split at ok
  · exact ⟨_, ok⟩
  · exact ⟨_, ok⟩

/-- Reading a list of records reads an action from each. -/
theorem forall₂_of_readList {supply : IdSupply} {place : Nat} {records : List Json}
    {actions : List Action} (ok : (readList supply place records).1 = .ok actions) :
    List.Forall₂ (fun record a => ∃ fresh, readWith fresh record = .ok a) records actions := by
  induction records generalizing supply place actions with
  | nil =>
    obtain rfl := Checked.ok.inj ok
    exact .nil
  | cons record rest inductionHypothesis =>
    simp only [readList, Checked.also_eq_ok, Checked.map_eq_ok, Checked.under_eq_ok] at ok
    obtain ⟨_, later, ⟨first, here, rfl⟩, there, rfl⟩ := ok
    exact .cons (readWith_of_read here) (inductionHypothesis there)

/-- A list of records can be read exactly if each of them is one of an action. -/
theorem exists_readList_iff (supply : IdSupply) (place : Nat) (records : List Json) :
    (∃ actions, (readList supply place records).1 = .ok actions) ↔
      ∀ record ∈ records, IsReadable record := by
  induction records generalizing supply place with
  | nil => simp [readList]
  | cons record rest inductionHypothesis =>
    have under : (∃ a, ((read supply record).1.under (.index place)) = .ok a) ↔
        IsReadable record := by
      simp only [Checked.under_eq_ok]
      exact exists_read_iff supply record
    simp only [readList, Checked.exists_also, Checked.exists_map, under, inductionHypothesis,
      List.forall_mem_cons]

end Action

namespace Archive

/-! ## What loading tells -/

/-- What loading a row tells of the text in its column. -/
def RowTells (subject text : String) : Except StoreError (List Action) → Prop
  | .ok actions => ¬ IsNumberText text ∧
      ((∃ records, Json.read text = .ok (.arr records) ∧
          List.Forall₂ (fun record a => ∃ fresh, Action.readWith fresh record = .ok a)
            records actions) ∨
        IsVoidText text ∧ actions = [])
  | .error (.load who) => who = subject ∧ ¬ IsQueueText text ∧ ¬ IsVoidText text ∧
      ¬ IsOverlongText text ∧ ¬ IsNumberText text
  | .error (.numeral error) => ¬ IsNumberText text ∧ Json.read text = .error (.numeral error) ∧
      Json.IsOverlong text.toList error
  | .error .notText => IsNumberText text
  | .error (.save _) | .error (.record _) | .error (.importSyntax _) | .error .importShape
  | .error (.importRecord _) | .error .unwritable | .error (.placeName _) => False

section Texts

variable {text : String}

/-- A text that stops the reader is no text of a queue, and of no value that holds nothing. -/
theorem not_isQueueText_of_error {stop : Json.ReadError} (read : Json.read text = .error stop) :
    ¬ IsQueueText text ∧ ¬ IsVoidText text := by
  constructor
  · rintro ⟨_, isArray, _⟩
    cases read.symm.trans isArray
  · rintro ⟨_, isValue, _⟩
    cases read.symm.trans isValue

/-- A text of a value that holds something tells what it should. -/
theorem rowTells_of_truthy (supply : IdSupply) (subject : String) {value : Json}
    (number : ¬ IsNumberText text) (read : Json.read text = .ok value)
    (truthy : value.isTruthy = true) :
    RowTells subject text (readActions supply subject (.text text)).1 := by
  have notOverlong : ¬ IsOverlongText text := by
    rintro ⟨_, overlong⟩
    cases read.symm.trans overlong
  have notVoid : ¬ IsVoidText text := by
    rintro ⟨other, readToo, falsy, _⟩
    obtain rfl := Except.ok.inj (read.symm.trans readToo)
    exact absurd truthy (by rw [falsy]; decide)
  simp only [readActions, read, truthy, Bool.not_true, Bool.false_eq_true, if_false]
  cases value with
  | arr records =>
    have readable := Action.exists_readList_iff supply 0 records
    simp only [Action.readAll]
    rcases reading : Action.readList supply 0 records with ⟨checked, after⟩
    rw [reading] at readable
    cases checked with
    | ok actions =>
      have passed : (Action.readList supply 0 records).1 = .ok actions := by rw [reading]
      exact ⟨number, .inl ⟨records, read, Action.forall₂_of_readList passed⟩⟩
    | refused faults =>
      refine ⟨rfl, ?_, notVoid, notOverlong, number⟩
      rintro ⟨others, readToo, each⟩
      obtain rfl := Json.arr.inj (Except.ok.inj (read.symm.trans readToo))
      obtain ⟨_, passed⟩ := readable.mpr each
      cases passed
  | null | bool _ | int _ | float _ | str _ | obj _ =>
    refine ⟨rfl, ?_, notVoid, notOverlong, number⟩
    rintro ⟨_, readToo, _⟩
    cases read.symm.trans readToo

/-- A text of a value that holds nothing tells what it should. -/
theorem rowTells_of_falsy (supply : IdSupply) (subject : String) {value : Json}
    (number : ¬ IsNumberText text) (read : Json.read text = .ok value)
    (falsy : value.isTruthy = false) :
    RowTells subject text (readActions supply subject (.text text)).1 := by
  simp only [readActions, read, falsy, Bool.not_false, if_true]
  refine ⟨number, ?_⟩
  cases value with
  | arr records =>
    have none : records = [] := by simpa [Json.isTruthy] using falsy
    subst none
    exact .inl ⟨[], read, .nil⟩
  | null | bool _ | int _ | float _ | str _ | obj _ =>
    exact .inr ⟨⟨_, read, falsy, fun _ same => by cases same⟩, rfl⟩

/-- A text of a value that holds nothing is read as no actions. -/
theorem readActions_of_void (supply : IdSupply) (subject : String) (number : ¬ IsNumberText text)
    (isVoid : IsVoidText text) :
    readActions supply subject (Cell.text text).kept = (.ok [], supply) := by
  obtain ⟨value, read, falsy, -⟩ := isVoid
  rw [Cell.kept_text number]
  simp only [readActions, read, falsy, Bool.not_false, if_true]

/-- What the actions of a row are read as tells of the text in its column. -/
theorem rowTells_readActions (supply : IdSupply) (subject text : String) :
    RowTells subject text (readActions supply subject (Cell.text text).kept).1 := by
  by_cases number : IsNumberText text
  · obtain ⟨cell, isNumber⟩ := Option.isSome_iff_exists.mp number
    have kept : (Cell.text text).kept = cell := by
      rw [Cell.kept, isNumber, Option.getD_some]
    rw [kept]
    cases cell with
    | whole _ | real _ => exact number
    | text other => exact absurd rfl (Cell.number?_ne_text isNumber other)
  rw [Cell.kept_text number]
  cases read : Json.read text with
  | error stop =>
    obtain ⟨noQueue, notVoid⟩ := not_isQueueText_of_error read
    cases stop with
    | numeral error =>
      simp only [readActions, read]
      exact ⟨number, read, Json.isOverlong_of_read read⟩
    | syntactic _ _ _ _ =>
      simp only [readActions, read]
      refine ⟨rfl, noQueue, notVoid, ?_, number⟩
      rintro ⟨_, overlong⟩
      cases read.symm.trans overlong
  | ok value =>
    rcases Bool.eq_false_or_eq_true value.isTruthy with truthy | falsy
    · exact rowTells_of_truthy supply subject number read truthy
    · exact rowTells_of_falsy supply subject number read falsy

end Texts

/-- Only texts of queues pass as queues, and all others are refused as queues that cannot be
loaded. -/
def PassesQueuesOnly (subject text : String) (loaded : Except StoreError (List Action)) : Prop :=
  ((∃ actions, loaded = .ok actions) ↔ IsQueueText text) ∧
    ∀ error, loaded = .error error → error = .load subject

/-- Records that have been read are ones of actions. -/
theorem isReadable_of_forall₂ {records : List Json} {actions : List Action}
    (each : List.Forall₂ (fun record a => ∃ fresh, Action.readWith fresh record = .ok a)
      records actions) : ∀ record ∈ records, Action.IsReadable record := by
  induction each with
  | nil => simp
  | cons first _ inductionHypothesis =>
    obtain ⟨fresh, read⟩ := first
    exact List.forall_mem_cons.mpr
      ⟨(Action.exists_readWith_iff fresh _).mp ⟨_, read⟩, inductionHypothesis⟩

/-- A text that gets past the refusal passes as a queue without actions, or fails as nobody
foresees. -/
theorem RowTells.of_getsPast {subject text : String} {loaded : Except StoreError (List Action)}
    (tells : RowTells subject text loaded) (past : GetsPast text) :
    (loaded = .ok [] ∧ IsVoidText text ∧ ¬ IsNumberText text) ∨
      ∃ error, loaded = .error error ∧ error.isExpected = false := by
  cases loaded with
  | ok actions =>
    obtain ⟨number, ⟨records, read, -⟩ | ⟨isVoid, rfl⟩⟩ := tells
    · rcases past with ⟨value, readToo, -, noArray⟩ | ⟨_, stopped⟩ | isNumber
      · exact absurd (Except.ok.inj (readToo.symm.trans read)) (noArray records)
      · cases read.symm.trans stopped
      · exact absurd isNumber number
    · exact .inl ⟨rfl, isVoid, number⟩
  | error error =>
    refine .inr ⟨error, rfl, ?_⟩
    cases error with
    | numeral _ | notText => rfl
    | load _ =>
      obtain ⟨-, -, notVoid, notOverlong, number⟩ := tells
      rcases past with isVoid | isOverlong | isNumber
      · exact absurd isVoid notVoid
      · exact absurd isOverlong notOverlong
      · exact absurd isNumber number
    | save _ | record _ | importSyntax _ | importShape | importRecord _ | unwritable
    | placeName _ => exact tells.elim

/-- Only texts of queues pass as queues, and all others are refused, exactly if the text does not
get past the refusal. -/
theorem RowTells.passesQueuesOnly_iff {subject text : String}
    {loaded : Except StoreError (List Action)} (tells : RowTells subject text loaded) :
    PassesQueuesOnly subject text loaded ↔ ¬ GetsPast text := by
  constructor
  · rintro ⟨passes, expected⟩ past
    rcases tells.of_getsPast past with ⟨ok, isVoid, -⟩ | ⟨error, failed, unexpected⟩
    · exact isVoid.not_isQueueText (passes.mp ⟨[], ok⟩)
    · rw [expected error failed] at unexpected
      cases unexpected
  · intro notPast
    cases loaded with
    | ok actions =>
      refine ⟨⟨fun _ => ?_, fun _ => ⟨actions, rfl⟩⟩, fun _ failed => by cases failed⟩
      rcases tells with ⟨-, ⟨records, read, each⟩ | ⟨isVoid, -⟩⟩
      · exact ⟨records, read, isReadable_of_forall₂ each⟩
      · exact absurd (.inl isVoid) notPast
    | error error =>
      cases error with
      | load who =>
        obtain ⟨rfl, noQueue, -⟩ := tells
        refine ⟨⟨?_, fun isQueue => absurd isQueue noQueue⟩, ?_⟩
        · rintro ⟨_, ⟨⟩⟩
        · rintro _ ⟨⟩
          rfl
      | numeral error => exact absurd (.inr (.inl ⟨error, tells.2.1⟩)) notPast
      | notText => exact absurd (.inr (.inr tells)) notPast
      | save _ | record _ | importSyntax _ | importShape | importRecord _ | unwritable
      | placeName _ => exact tells.elim

/-! ## Calls that load -/

section Calls

variable {a : Archive} {subject : String} {row : Row} (stored : a.row? subject = some row)

include stored

/-- Loading a row reads its actions. -/
theorem load_of_row :
    a.load subject =
      ((readActions a.supply subject row.actions).1.map fun actions =>
          some { version := row.version, enabled := row.enabled.isTruthy, actions },
        { a with supply := (readActions a.supply subject row.actions).2 }) := by
  obtain ⟨rows, isTable, found⟩ := Option.bind_eq_some_iff.mp stored
  simp only [Archive.load, isTable, found]

/-- The queue of a row is what its actions are read as. -/
theorem queue_of_row :
    a.queue subject = ((readActions a.supply subject row.actions).1,
      { a with supply := (readActions a.supply subject row.actions).2 }) := by
  rw [Archive.queue, load_of_row stored]
  cases (readActions a.supply subject row.actions).1 with
  | ok _ | error _ => rfl

/-- The sorted view of a row is what its actions are read as, sorted. -/
theorem sortedQueue_of_row :
    a.sortedQueue subject = ((readActions a.supply subject row.actions).1.map sortedByOrder,
      { a with supply := (readActions a.supply subject row.actions).2 }) := by
  rw [Archive.sortedQueue, queue_of_row stored]

/-- The flag of a row is told if its actions can be read. -/
theorem isEnabled_of_row :
    a.isEnabled subject =
      ((readActions a.supply subject row.actions).1.map fun _ => row.enabled.isTruthy,
        { a with supply := (readActions a.supply subject row.actions).2 }) := by
  rw [Archive.isEnabled, load_of_row stored]
  cases (readActions a.supply subject row.actions).1 with
  | ok _ | error _ => rfl

end Calls

end Archive
end TurnScript
