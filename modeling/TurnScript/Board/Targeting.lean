import TurnScript.Board.Basic

/-!
# Choosing a target

Each priority ranks the candidates by a number, and the earliest of the best is taken.
Priorities are tried in turn and unknown ones passed over; if none is known the first
candidate is taken. Older scripts call armor class "defense".
-/

namespace TurnScript

/-- Whether less or more is better. -/
inductive Preference where
  | least
  | greatest
  deriving Repr, DecidableEq

/-- The earliest of the best items by a number. -/
def Preference.best? {α : Type} (preference : Preference) (score : α → Int) : List α → Option α
  | [] => none
  | first :: rest =>
    some (rest.foldl (fun chosen item =>
      let better := match preference with
        | .least => decide (score item < score chosen)
        | .greatest => decide (score chosen < score item)
      if better then item else chosen) first)

/-- By what number candidates are ranked. -/
inductive Criterion where
  | distance
  | hp
  | ac
  deriving Repr, DecidableEq

/-- The number of a candidate as seen by the subject. -/
def Criterion.score (criterion : Criterion) (b : Board) (subject candidate : TokenRef) : Int :=
  match criterion with
  | .distance => b.distance subject candidate
  | .hp => (b.token candidate).hp
  | .ac => (b.token candidate).ac

/-- What a priority asks for, if it is known. -/
def TargetPriority.ranking? : TargetPriority → Option (Preference × Criterion)
  | nearest => some (.least, .distance)
  | furthest => some (.greatest, .distance)
  | lowestHP => some (.least, .hp)
  | highestHP => some (.greatest, .hp)
  | lowestAC => some (.least, .ac)
  | highestAC => some (.greatest, .ac)
  | other name =>
    if name = "lowestDefense" then some (.least, .ac)
    else if name = "highestDefense" then some (.greatest, .ac)
    else none

namespace Board

/-- The candidate nearest to a subject. -/
def nearest? (b : Board) (subject : TokenRef) (candidates : List TokenRef) : Option TokenRef :=
  Preference.least.best? (b.distance subject) candidates

/-- The candidate that the priorities pick. -/
def selectTarget (b : Board) (subject : TokenRef) (candidates : List TokenRef)
    (priorities : List TargetPriority) : Option TokenRef :=
  match priorities.findSome? (·.ranking?) with
  | some (preference, criterion) => preference.best? (criterion.score b subject) candidates
  | none => candidates.head?

/-- Reference of an item in an action's data: under its record name, or if that holds nothing
under its part name. Data that is no text names no item. -/
def itemReference (data : Fields) : Option String :=
  let first := (Json.get? data "itemUuid").getD .null
  let chosen := if first.isTruthy then first else (Json.get? data "item_uuid").getD .null
  match chosen with
  | .str text => some text
  | _ => none

/-- Feet that an action reaches: those of its item, or one square without an item. -/
def reachOf (b : Board) (action : Option Action) : Int :=
  let item := do b.scene.item? (← itemReference (← action).data)
  match item with
  | some item => item.reach
  | none => b.scene.cell

/-- Whether some valid hostile is within the reach of an action. -/
def inRange (b : Board) (subject : TokenRef) (action : Option Action) (reveal : Bool) : Bool :=
  (b.hostilesOf subject reveal).any fun hostile => b.distance subject hostile ≤ b.reachOf action

end Board
end TurnScript
