import TurnScript.Board.Scene

/-!
# Feet between squares and along routes

Where a square is some feet wide, the straight way is the shortest one, and a route is no shorter
than any part that it begins with. The number of feet in a square is taken as it is given; where it
is negative all distances are, and none is more than nothing.
-/

namespace TurnScript

/-- Squares from one square to another: the greater of the two differences. -/
def Position.steps (start goal : Position) : Nat :=
  max (goal.x - start.x).natAbs (goal.y - start.y).natAbs

theorem Position.steps_triangle (start middle goal : Position) :
    start.steps goal ≤ start.steps middle + middle.steps goal := by
  have across : ∀ a b c : Int, (c - a).natAbs ≤ (b - a).natAbs + (c - b).natAbs := by omega
  apply Nat.max_le.mpr
  constructor
  · exact Nat.le_trans (across start.x middle.x goal.x)
      (Nat.add_le_add (Nat.le_max_left _ _) (Nat.le_max_left _ _))
  · exact Nat.le_trans (across start.y middle.y goal.y)
      (Nat.add_le_add (Nat.le_max_right _ _) (Nat.le_max_right _ _))

namespace Scene

variable {s : Scene}

theorem distance_eq (s : Scene) (start goal : Position) :
    s.distance start goal = start.steps goal * s.cell := rfl

theorem distance_nonneg (metric : 0 ≤ s.cell) (start goal : Position) :
    0 ≤ s.distance start goal :=
  Int.mul_nonneg (Int.natCast_nonneg _) metric

theorem distance_nonpos (inverted : s.cell ≤ 0) (start goal : Position) :
    s.distance start goal ≤ 0 :=
  Int.mul_nonpos_of_nonneg_of_nonpos (Int.natCast_nonneg _) inverted

/-- A detour is no shorter than the straight way. -/
theorem distance_triangle (metric : 0 ≤ s.cell) (start middle goal : Position) :
    s.distance start goal ≤ s.distance start middle + s.distance middle goal := by
  have squares : (start.steps goal : Int) ≤ start.steps middle + middle.steps goal := by
    exact_mod_cast start.steps_triangle middle goal
  rw [distance_eq, distance_eq, distance_eq, ← Int.add_mul]
  exact Int.mul_le_mul_of_nonneg_right squares metric

theorem pathDistance_nonneg (metric : 0 ≤ s.cell) (start : Position) (squares : List Position) :
    0 ≤ s.pathDistance (start :: squares) := by
  induction squares generalizing start with
  | nil => exact Int.le_refl 0
  | cons square squares inductionHypothesis =>
    exact Int.add_nonneg (distance_nonneg metric start square) (inductionHypothesis square)

theorem pathDistance_nonpos (inverted : s.cell ≤ 0) (start : Position) (squares : List Position) :
    s.pathDistance (start :: squares) ≤ 0 := by
  induction squares generalizing start with
  | nil => exact Int.le_refl 0
  | cons square squares inductionHypothesis =>
    exact Int.add_nonpos (distance_nonpos inverted start square) (inductionHypothesis square)

/-- A route is no shorter than any part that it begins with. -/
theorem pathDistance_take_le (metric : 0 ≤ s.cell) (start : Position) (squares : List Position)
    (count : Nat) :
    s.pathDistance (start :: squares.take count) ≤ s.pathDistance (start :: squares) := by
  induction squares generalizing start count with
  | nil => simp only [List.take_nil, Int.le_refl]
  | cons square squares inductionHypothesis =>
    cases count with
    | zero => exact pathDistance_nonneg metric start (square :: squares)
    | succ count =>
      rw [List.take_succ_cons]
      exact Int.add_le_add_left (inductionHypothesis square count) (s.distance start square)

/-- The straight way to the end of a route is no longer than the route. -/
theorem distance_le_pathDistance (metric : 0 ≤ s.cell) (start : Position) {squares : List Position}
    {goal : Position} (ends : squares.getLast? = some goal) :
    s.distance start goal ≤ s.pathDistance (start :: squares) := by
  induction squares generalizing start with
  | nil => cases ends
  | cons square squares inductionHypothesis =>
    cases squares with
    | nil =>
      obtain rfl := Option.some.inj ends
      exact Int.le_of_eq (Int.add_zero _).symm
    | cons next squares =>
      have rest := inductionHypothesis square ends
      calc s.distance start goal
          ≤ s.distance start square + s.distance square goal :=
            distance_triangle metric start square goal
        _ ≤ s.distance start square + s.pathDistance (square :: next :: squares) :=
            Int.add_le_add_left rest _

/-- A part that a route begins with is within every budget of the route that is not negative. -/
theorem pathDistance_take_le_of_le (start : Position) {squares : List Position} {most : Int}
    (nonneg : 0 ≤ most) (within : s.pathDistance (start :: squares) ≤ most) (count : Nat) :
    s.pathDistance (start :: squares.take count) ≤ most := by
  rcases Int.le_total 0 s.cell with metric | inverted
  · exact Int.le_trans (pathDistance_take_le metric start squares count) within
  · exact Int.le_trans (pathDistance_nonpos inverted start _) nonneg

end Scene
end TurnScript
