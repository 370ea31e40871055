import TurnScript.Play.Movement

/-!
# Steps

A step brings a token to a square, if the scene holds the token under its own id, and leaves
everything else on the board alone. So several steps in a row bring it to the last of their squares.
A token that the scene does not hold stays where it is, whoever may be moved in its place.
-/

namespace TurnScript.Board

variable {b middle after : Board} {mover : TokenRef} {square next : Position}

/-- The scene holds a token under the token's own id, so that the token is moved under it. -/
def Seats (b : Board) (mover : TokenRef) : Prop :=
  b.scene.tokenRef? (b.token mover).id = some mover

instance (b : Board) (mover : TokenRef) : Decidable (b.Seats mover) :=
  inferInstanceAs (Decidable (_ = _))

/-- Where a token comes to that is to go to a square. -/
def landing (b : Board) (mover : TokenRef) (square : Position) : Position :=
  if b.Seats mover then square else (b.token mover).position

theorem landing_of_seats (seated : b.Seats mover) (square : Position) :
    b.landing mover square = square :=
  if_pos seated

theorem landing_of_not_seats (unseated : ¬ b.Seats mover) (square : Position) :
    b.landing mover square = (b.token mover).position :=
  if_neg unseated

theorem landing_position (b : Board) (mover : TokenRef) :
    b.landing mover (b.token mover).position = (b.token mover).position :=
  ite_self _

/-! ## One step -/

/-- The token that the scene holds is moved. -/
theorem move_of_seats (seated : b.Seats mover) (square : Position) :
    (b.move (b.token mover).id square).2 =
      b.change mover fun t => { t with position := square } := by
  unfold Seats at seated
  simp only [move, seated]

/-- A token that the scene does not hold stays where it is. -/
theorem token_move_of_not_seats (unseated : ¬ b.Seats mover) (square : Position) :
    (b.move (b.token mover).id square).2.token mover = b.token mover := by
  unfold Seats at unseated
  unfold move
  cases held : b.scene.tokenRef? (b.token mover).id with
  | none => rfl
  | some ref =>
    have other : mover ≠ ref := by
      rintro rfl
      exact unseated held
    exact token_change_ne b _ other

theorem scene_move (b : Board) (id : String) (square : Position) :
    (b.move id square).2.scene = b.scene := by
  unfold move
  split <;> rfl

theorem length_move (b : Board) (id : String) (square : Position) :
    (b.move id square).2.roster.length = b.roster.length := by
  unfold move
  split
  · rfl
  · exact List.length_modify _ _ _

/-! ## A piece of a movement -/

/-- A piece of a movement that brings a token to a square: it does nothing else to the token, and
nothing to any other, if the scene holds the token. -/
structure Paces (b after : Board) (mover : TokenRef) (square : Position) : Prop where
  scene : after.scene = b.scene
  roster : after.roster.length = b.roster.length
  moved : after.token mover = { b.token mover with position := square }
  others : b.Seats mover → ∀ other, other ≠ mover → after.token other = b.token other

/-- A piece without a step. -/
theorem Paces.stay (b : Board) (mover : TokenRef) : b.Paces b mover (b.token mover).position :=
  ⟨rfl, rfl, rfl, fun _ _ _ => rfl⟩

/-- A step to a square. -/
theorem Paces.step (listed : mover < b.roster.length) (square : Position) :
    b.Paces (b.move (b.token mover).id square).2 mover (b.landing mover square) := by
  refine ⟨b.scene_move _ _, b.length_move _ _, ?_, ?_⟩
  · by_cases seated : b.Seats mover
    · rw [landing_of_seats seated, move_of_seats seated]
      exact token_change_self _ _ listed
    · rw [landing_of_not_seats seated]
      exact token_move_of_not_seats seated square
  · intro seated other distinct
    rw [move_of_seats seated]
    exact token_change_ne _ _ distinct

/-- Whether the scene holds a token does not depend on where the token stands. -/
theorem Paces.seats_iff (paces : b.Paces after mover square) : after.Seats mover ↔ b.Seats mover := by
  unfold Seats
  rw [paces.scene, paces.moved]

/-- One piece after another. -/
theorem Paces.trans (first : b.Paces middle mover square) (second : middle.Paces after mover next) :
    b.Paces after mover next := by
  refine ⟨second.scene.trans first.scene, second.roster.trans first.roster, ?_, ?_⟩
  · rw [second.moved, first.moved]
  · intro seated other distinct
    rw [second.others (first.seats_iff.mpr seated) other distinct,
      first.others seated other distinct]

/-- Where a token comes to does not depend on where it stands, if the scene holds it. Otherwise it
stays where it has come to. -/
theorem Paces.landing (paces : b.Paces middle mover (b.landing mover square)) (next : Position) :
    middle.landing mover next = b.landing mover next := by
  by_cases seated : b.Seats mover
  · rw [landing_of_seats seated, landing_of_seats (paces.seats_iff.mpr seated)]
  · rw [landing_of_not_seats seated, landing_of_not_seats (mt paces.seats_iff.mp seated),
      paces.moved]
    exact landing_of_not_seats seated square

/-- Steps in a row bring a token to the last of their squares. -/
theorem paces_steps (listed : mover < b.roster.length) {id : String}
    (named : (b.token mover).id = id) (squares : List Position) :
    b.Paces (squares.foldl (fun b square => (b.move id square).2) b) mover
      (b.landing mover (squares.getLast?.getD (b.token mover).position)) := by
  induction squares generalizing b with
  | nil =>
    rw [List.getLast?_nil, Option.getD_none, landing_position]
    exact .stay b mover
  | cons square squares inductionHypothesis =>
    subst named
    have step := Paces.step listed square
    have same : ((b.move (b.token mover).id square).2.token mover).id = (b.token mover).id := by
      rw [step.moved]
    have rest := inductionHypothesis (step.roster ▸ listed) same
    rw [step.landing, step.moved] at rest
    rw [List.foldl_cons, List.getLast?_cons, Option.getD_some]
    cases squares with
    | nil => exact step
    | cons next squares => exact step.trans rest

end TurnScript.Board
