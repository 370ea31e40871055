import TurnScript.Combat.Errand

/-!
# Combats in a melee

Several errands of a combat can be under way at once. A call goes on by itself until it rests
between two rolls of a batch, or until a turn is announced. While it rests, other calls are made or
taken up, and whoever is around the combat may change the tokens. What the listeners of a turn do is
up to them: it can take any time, and the combat comes to know of it only by what has become of the
tokens.

So a history of a combat is a list of incidents: calls, ends of a rest, and changes of the table.
Any errand that rests may be the next to go on.
-/

namespace TurnScript

/-- An errand that rests between two rolls of its batch. -/
structure Resting where
  errand : Errand
  ahead : List TokenRef
  rolled : Nat
  deriving Repr, DecidableEq

/-- A turn that has been announced: in which round, and of which token at which place of the
order. -/
structure Announcement where
  round : Nat
  place : Nat
  ref : TokenRef
  deriving Repr, DecidableEq

/-- A combat at its table, with the errands that rest and the turns announced so far, in order. -/
structure Melee where
  combat : Combat
  table : Table
  resting : List Resting := []
  turns : List Announcement := []
  deriving Repr, DecidableEq

/-- Something that happens in a melee. -/
inductive Incident where
  | roll
  | start
  | next
  | join (ref : TokenRef)
  /-- The rest of an errand is over. -/
  | rested (place : Nat)
  /-- Someone else has changed the table. -/
  | disturbed (table : Table)
  deriving Repr, DecidableEq

namespace Combat.Stage

/-- The errand that rests at a stage, if it does. -/
def resting? (errand : Errand) : Stage → Option Resting
  | .resting ahead rolled => some ⟨errand, ahead, rolled⟩
  | _ => none

/-- The turn that is announced at a stage of a combat, if one is. -/
def announcement? (c : Combat) : Stage → Option Announcement
  | .announcing ref => some ⟨c.round, c.turn, ref⟩
  | _ => none

/-- Whether an errand has come to a mishap. -/
def isMishap : Stage → Bool
  | .ended (.raised _) => true
  | _ => false

end Combat.Stage

namespace Melee

/-- The piece of an errand that is done when something happens. -/
def piece? (m : Melee) : Incident → Option (Errand × Combat.Step Combat.Stage)
  | .roll => some (.roll, m.combat.roll m.table)
  | .start => some (.start, m.combat.start m.table)
  | .next => some (m.combat.next m.table)
  | .join ref => some (.join, m.combat.join m.table ref)
  | .rested place => m.resting[place]?.map fun r =>
      (r.errand, m.combat.rested m.table r.errand r.ahead r.rolled)
  | .disturbed _ => none

/-- The errands that go on resting when something happens. -/
def others (m : Melee) : Incident → List Resting
  | .rested place => m.resting.eraseIdx place
  | _ => m.resting

/-- Put a piece of an errand in place. -/
def settle (m : Melee) (others : List Resting) (errand : Errand)
    (step : Combat.Step Combat.Stage) : Melee where
  combat := step.combat
  table := step.table
  resting := others ++ (step.result.resting? errand).toList
  turns := m.turns ++ (step.result.announcement? step.combat).toList

/-- The melee after something has happened. -/
def effect (m : Melee) (incident : Incident) : Melee :=
  match m.piece? incident with
  | some (errand, step) => m.settle (m.others incident) errand step
  | none => match incident with
    | .disturbed table => { m with table }
    | _ => m

/-- The melee after a history. -/
def after (m : Melee) (history : List Incident) : Melee :=
  history.foldl effect m

/-- Whether every incident of a history is of some sort when it happens. -/
def always (fits : Melee → Incident → Bool) (m : Melee) : List Incident → Bool
  | [] => true
  | incident :: rest => fits m incident && always fits (m.effect incident) rest

theorem after_append (m : Melee) (early late : List Incident) :
    m.after (early ++ late) = (m.after early).after late :=
  List.foldl_append

/-- What incidents of some sorts preserve is preserved by a history of them. -/
theorem after_induction {motive : Melee → Prop} {fits also : Melee → Incident → Bool} {m : Melee}
    {history : List Incident} (start : motive m)
    (step : ∀ m incident, motive m → fits m incident = true → also m incident = true →
      motive (m.effect incident))
    (fitting : always fits m history = true) (alsoFitting : always also m history = true) :
    motive (m.after history) := by
  induction history generalizing m with
  | nil => exact start
  | cons incident rest inductionHypothesis =>
    simp only [always, Bool.and_eq_true] at fitting alsoFitting
    exact inductionHypothesis (step m incident start fitting.1 alsoFitting.1) fitting.2
      alsoFitting.2

end Melee
end TurnScript
