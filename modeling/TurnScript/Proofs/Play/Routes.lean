import TurnScript.Play.Movement
import TurnScript.Proofs.Board.Distance

/-!
# Routes

A movement has a route if it has somewhere to go and its route, or the jump that it makes instead,
is within the budget. Everything else is refused before the first step: without a destination, or
with a length that the refusal tells.
-/

namespace TurnScript

/-- Whether a movement walks along its waypoints. -/
def MovementPayload.walks (payload : MovementPayload) : Bool :=
  payload.target == .waypoint && 1 < payload.waypoints.length

/-- The squares that a movement to a goal goes to in turn: its waypoints but the first, which it
comes from, or the goal alone. -/
def MovementPayload.squares (payload : MovementPayload) (goal : Position) : List Position :=
  if payload.walks then payload.waypoints.drop 1 else [goal]

namespace Board

variable {b : Board} {mover : TokenRef} {payload : MovementPayload} {reveal : Bool}
  {defaultSpeed : Int} {goal : Position}

/-- Feet to a goal along the squares of a movement. -/
def lengthOf (b : Board) (mover : TokenRef) (payload : MovementPayload) (goal : Position) : Int :=
  b.scene.pathDistance ((b.token mover).position :: payload.squares goal)

/-- A route that a movement has: to its destination, by its squares, and within its budget. -/
structure Plans (b : Board) (mover : TokenRef) (payload : MovementPayload) (reveal : Bool)
    (defaultSpeed : Int) (route : Route) : Prop where
  goal : b.findDestination mover payload reveal = some route.goal
  squares : route.squares = payload.squares route.goal
  walked : route.walked = payload.walks
  within : b.scene.pathDistance ((b.token mover).position :: route.squares) ≤
    budget payload (b.token mover) defaultSpeed

/-- The squares of a movement end at its goal. -/
theorem getLast?_squares (found : b.findDestination mover payload reveal = some goal) :
    (payload.squares goal).getLast? = some goal := by
  unfold MovementPayload.squares
  split
  · next walks =>
    obtain ⟨waypoint, several⟩ := Bool.and_eq_true_iff.mp walks
    have several : 1 < payload.waypoints.length := of_decide_eq_true several
    obtain ⟨last, ends⟩ : ∃ last, payload.waypoints.getLast? = some last := by
      cases waypoints : payload.waypoints with
      | nil => simp [waypoints] at several
      | cons first rest => exact ⟨_, List.getLast?_cons⟩
    have here : last = goal := by
      simpa [findDestination, eq_of_beq waypoint, ends] using found
    rw [List.getLast?_drop, if_neg (Nat.not_le.mpr several), ends, here]
  · rfl

theorem Plans.ends {route : Route} (plans : b.Plans mover payload reveal defaultSpeed route) :
    route.squares.getLast? = some route.goal := by
  rw [plans.squares]
  exact getLast?_squares plans.goal

/-- What comes of a movement before its first step. -/
theorem planMovement_eq (b : Board) (mover : TokenRef) (payload : MovementPayload) (reveal : Bool)
    (defaultSpeed : Int) : b.planMovement mover payload reveal defaultSpeed =
      match b.findDestination mover payload reveal with
      | none => .error (.ok noDestination)
      | some goal =>
        if budget payload (b.token mover) defaultSpeed < b.lengthOf mover payload goal
        then .error (tooFar (b.lengthOf mover payload goal)
          (budget payload (b.token mover) defaultSpeed))
        else .ok ⟨payload.squares goal, goal, payload.walks⟩ := rfl

theorem plans_iff {route : Route} :
    b.planMovement mover payload reveal defaultSpeed = .ok route ↔
      b.Plans mover payload reveal defaultSpeed route := by
  rw [planMovement_eq]
  constructor
  · intro planned
    split at planned
    · cases planned
    next goal found =>
    split at planned
    · cases planned
    · next short =>
      cases planned
      exact ⟨found, rfl, rfl, Int.not_lt.mp short⟩
  · rintro ⟨found, squares, walked, within⟩
    obtain ⟨_, goal, _⟩ := route
    dsimp only at found squares walked
    subst squares walked
    rw [found]
    exact if_neg (Int.not_lt.mpr within)

/-- A movement that is refused has nowhere to go, or is longer than its budget. -/
inductive Refuses (b : Board) (mover : TokenRef) (payload : MovementPayload) (reveal : Bool)
    (defaultSpeed : Int) : Played → Prop where
  | astray (lost : b.findDestination mover payload reveal = none) :
      Refuses b mover payload reveal defaultSpeed (.ok noDestination)
  | long {goal : Position} (found : b.findDestination mover payload reveal = some goal)
      (exceeds : budget payload (b.token mover) defaultSpeed < b.lengthOf mover payload goal) :
      Refuses b mover payload reveal defaultSpeed (tooFar (b.lengthOf mover payload goal)
        (budget payload (b.token mover) defaultSpeed))

theorem refuses_iff {played : Played} :
    b.planMovement mover payload reveal defaultSpeed = .error played ↔
      b.Refuses mover payload reveal defaultSpeed played := by
  rw [planMovement_eq]
  constructor
  · intro refused
    split at refused
    · next lost =>
      cases refused
      exact .astray lost
    next goal found =>
    split at refused
    · next exceeds =>
      cases refused
      exact .long found exceeds
    · cases refused
  · intro refuses
    cases refuses with
    | astray lost => rw [lost]
    | long found exceeds =>
      rw [found]
      exact if_pos exceeds

/-- A refusal is a failure, or the lengths that it would tell cannot be written. -/
theorem Refuses.fails {outcome : Outcome}
    (refuses : b.Refuses mover payload reveal defaultSpeed (.ok outcome)) :
    outcome.success = false := by
  generalize told : (.ok outcome : Played) = played at refuses
  cases refuses with
  | astray =>
    cases told
    rfl
  | long =>
    unfold tooFar at told
    split at told
    · cases told
      rfl
    · cases told

/-- A destination is no further away than the route to it is long. -/
theorem distance_le_lengthOf (metric : 0 ≤ b.scene.cell)
    (found : b.findDestination mover payload reveal = some goal) :
    b.scene.distance (b.token mover).position goal ≤ b.lengthOf mover payload goal :=
  Scene.distance_le_pathDistance metric _ (getLast?_squares found)

end Board
end TurnScript
