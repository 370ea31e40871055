import TurnScript.Session.Use

/-!
# What a failed use costs

A use is refused before anything is paid for it: without an item, with one that cannot be paid for,
without a target, or with data that cannot be read, the table stays as it is. Once it has been paid
for, a use succeeds or comes to a mishap. So a use that fails has cost something exactly where a
mishap, such as a formula that cannot be rolled, has overtaken it; then it has cost what a success
costs, and not a hit point more or less, unless all was done and the message could not be written.
-/

namespace TurnScript

/-- A board on which at most the hit points of a token differ. -/
def Board.Wounded (b after : Board) (victim : TokenRef) : Prop :=
  after = b ∨ ∃ hp, after = b.change victim fun t => { t with hp }

/-- A mishap that the dice, a missing score or a message can be the cause of. -/
def Mishap.IsOfPlay (mishap : Mishap) : Prop :=
  ∀ faults, mishap ≠ .invalid faults

namespace Board

/-- A use of an item that has been paid for, if it is to be. -/
def paid (b : Board) (user : TokenRef) (item : Item) (pays : Bool) : Board :=
  if pays then b.consume user item else b

theorem wounded_change_hp (b : Board) (victim : TokenRef) (hp : Token → Int) :
    b.Wounded (b.change victim fun t => { t with hp := hp t }) victim := by
  by_cases listed : victim < b.roster.length
  · refine .inr ⟨hp (b.token victim), ?_⟩
    simp only [change, Board.mk.injEq, and_true]
    apply List.ext_getElem?
    intro place
    by_cases here : victim = place
    · subst here
      simp [token, List.getD, listed]
    · simp [here]
  · exact .inl (b.change_of_unlisted _ listed)

end Board

namespace Table

variable {table before : Table} {victim : TokenRef}

/-- A remark that may be left out leaves the board. -/
theorem board_remark_unless (table : Table) (silent : Bool) (source : String) (level : Level)
    (text : String) :
    (if silent then table else table.remark source level text).board = table.board := by
  cases silent <;> rfl

/-- Damage is rolled before it is done: if it cannot be rolled, nobody is hurt. -/
theorem applyDamage_board (table : Table) (subject target : TokenRef) (formula : String)
    (critical halve : Bool) :
    (∀ mishap, (table.applyDamage subject target formula critical halve).1 = .error mishap →
      (table.applyDamage subject target formula critical halve).2.board = table.board ∧
        mishap.IsOfPlay) ∧
    table.board.Wounded (table.applyDamage subject target formula critical halve).2.board
      target := by
  unfold applyDamage
  cases rolled : table.dice.rollFormula formula (some (table.token subject).modifiers) critical with
  | mk total dice =>
    cases total with
    | error error =>
      refine ⟨?_, .inl rfl⟩
      rintro _ ⟨⟩
      exact ⟨rfl, fun faults => by simp⟩
    | ok total =>
      refine ⟨by simp, ?_⟩
      have hurt := table.board.wounded_change_hp target fun t =>
        max 0 (t.hp - if halve then max total 0 / 2 else max total 0)
      dsimp only
      rw [board_remark_unless]
      exact hurt

theorem damageOf_board (table : Table) (subject : TokenRef) (attack : ReadyAttack)
    (does critical halve : Bool) :
    (∀ mishap, (table.damageOf subject attack does critical halve).1 = .error mishap →
      (table.damageOf subject attack does critical halve).2.board = table.board ∧
        mishap.IsOfPlay) ∧
    table.board.Wounded (table.damageOf subject attack does critical halve).2.board
      attack.target := by
  unfold damageOf
  split
  · exact ⟨by simp, .inl rfl⟩
  · exact table.applyDamage_board subject attack.target _ critical halve

theorem rollSave_board (table : Table) (attack : ReadyAttack) (dc : Int) :
    (table.rollSave attack dc).2.board = table.board ∧
      ∀ mishap, (table.rollSave attack dc).1 = .error mishap → mishap.IsOfPlay := by
  unfold rollSave
  split
  · refine ⟨rfl, ?_⟩
    rintro _ ⟨⟩ faults ⟨⟩
  · next score _ =>
    refine ⟨rfl, ?_⟩
    intro mishap failed faults invalid
    subst invalid
    dsimp only at failed
    cases thrown : (table.dice.savingThrow score dc).1 with
    | error error =>
      rw [thrown] at failed
      cases failed
    | ok saved =>
      rw [thrown] at failed
      cases failed

end Table

namespace Session

variable {s : Session} {subject : TokenRef} {action : Action}

/-- Looking for a usable item fails with a foreseen kind of error. -/
theorem failure_of_usableItem {b : Board} {itemId : Option String} {outcome : Outcome}
    (refused : b.usableItem subject itemId = .error outcome) :
    ∃ kind message, outcome = .failure kind message ∧ kind ≠ .executionError := by
  unfold Board.usableItem Board.findItem at refused
  split at refused
  · next missing =>
    split at missing
    · cases missing; cases refused; exact ⟨_, _, rfl, by simp⟩
    · split at missing <;> cases missing
      cases refused; exact ⟨_, _, rfl, by simp⟩
  · split at refused <;> cases refused
    exact ⟨_, _, rfl, by simp⟩

theorem usableItem_foreseen {b : Board} {itemId : Option String} {outcome : Outcome}
    (refused : b.usableItem subject itemId = .error outcome) :
    outcome.errorKind ≠ some .executionError := by
  obtain ⟨kind, message, rfl, foreseen⟩ := failure_of_usableItem refused
  simpa [Outcome.failure] using foreseen

/-- Preparing an attack fails with a foreseen kind of error; what it prepares has a usable item. -/
theorem prepareAttack_cases (b : Board) (subject : TokenRef) (payload : AttackPayload)
    (reveal : Bool) :
    (∃ outcome, b.prepareAttack subject payload reveal = .error outcome ∧
      outcome.errorKind ≠ some .executionError) ∨
    ∃ ready, b.prepareAttack subject payload reveal = .ok ready ∧
      b.usableItem subject payload.itemId = .ok ready.item := by
  unfold Board.prepareAttack
  cases usable : b.usableItem subject payload.itemId with
  | error outcome => exact .inl ⟨outcome, rfl, usableItem_foreseen usable⟩
  | ok item =>
    dsimp only
    cases b.findTarget subject payload reveal with
    | none => exact .inl ⟨Board.noTarget, rfl, by simp [Board.noTarget, Outcome.failure]⟩
    | some target => exact .inr ⟨⟨item, target⟩, rfl, rfl⟩

/-- A wand with three uses. A blank has slipped into the formula of its damage. -/
def wand : Item :=
  { id := "wand", name := "Wand", uses := some 3, attackBonus := some 5, damage := some "1d6 + 3" }

/-- A hero with the wand and an orc beside; the next roll is a fifteen. -/
def duel : Session where
  table :=
    { board :=
        { roster :=
            [{ id := "hero", name := "hero", position := ⟨0, 0⟩, disposition := .friendly,
               hp := 10, maxHp := 10 },
             { id := "orc", name := "orc", position := ⟨1, 0⟩, disposition := .hostile,
               hp := 10, maxHp := 10 }]
          scene := { nodes := [("hero", .token 0), ("orc", .token 1), ("wand", .item wand)] } }
      dice := { source := .listed [15] } }

/-- The use of the wand on the orc. -/
def zap : Action :=
  { id := "zap", kind := .attack
    data := [("itemUuid", .str "wand"), ("targetId", .str "orc")] }

end Session
end TurnScript
