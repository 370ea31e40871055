import TurnScript.Proofs.Session.Walking

/-!
# Limits of movements

A movement can be given a limit of its own, which then is its budget in place of the speed of its
subject. A limit of no feet at all is taken for none.
-/

namespace TurnScript

namespace Board

variable {b : Board} {mover : TokenRef} {payload : MovementPayload} {reveal : Bool}
  {defaultSpeed limit : Int} {goal : Position}

/-- A limit is the budget. -/
theorem budget_of_limit (given : payload.maxDistance = some limit) (positive : limit ≠ 0)
    (subject : Token) (defaultSpeed : Int) : budget payload subject defaultSpeed = limit := by
  unfold budget
  rw [given]
  exact if_pos positive

/-- A movement with a limit of zero is planned like one without a limit. -/
theorem planMovement_of_zero (given : payload.maxDistance = some 0) (b : Board) (mover : TokenRef)
    (reveal : Bool) (defaultSpeed : Int) :
    b.planMovement mover payload reveal defaultSpeed =
      b.planMovement mover { payload with maxDistance := none } reveal defaultSpeed := by
  have same : budget payload (b.token mover) defaultSpeed =
      budget { payload with maxDistance := none } (b.token mover) defaultSpeed := by
    unfold budget
    rw [given]
    exact if_neg (fun positive => positive rfl)
  rw [planMovement_eq, planMovement_eq, same]
  rfl

/-- What is beyond a limit by the straight way is beyond it by every other way. -/
theorem lt_lengthOf_of_far (nonneg : 0 ≤ limit)
    (found : b.findDestination mover payload reveal = some goal)
    (far : limit < b.scene.distance (b.token mover).position goal) :
    limit < b.lengthOf mover payload goal := by
  have metric : 0 ≤ b.scene.cell := by
    apply Int.not_lt.mp
    intro inverted
    have nowhere := Scene.distance_nonpos (Int.le_of_lt inverted) (b.token mover).position goal
    exact Int.not_le.mpr (Int.lt_of_le_of_lt nonneg far) nowhere
  exact Int.lt_of_lt_of_le far (distance_le_lengthOf metric found)

/-- What is beyond a limit is refused, for the length of the way that the movement would take. -/
theorem refuses_of_long (given : payload.maxDistance = some limit) (positive : limit ≠ 0)
    (found : b.findDestination mover payload reveal = some goal)
    (long : limit < b.lengthOf mover payload goal) :
    b.Refuses mover payload reveal defaultSpeed (tooFar (b.lengthOf mover payload goal) limit) := by
  have exhausted := budget_of_limit given positive (b.token mover) defaultSpeed
  have refuses : b.Refuses mover payload reveal defaultSpeed _ :=
    .long found (exhausted.symm ▸ long)
  rwa [exhausted] at refuses

/-- A refusal can be told if its lengths can be written. -/
theorem tooFar_of_writable {length most : Int} (writable : [length, most].all Text.isWritable = true) :
    tooFar length most = .ok (.failure .outOfRange ("Destination exceeds movement range (" ++
      toString length ++ " ft > " ++ toString most ++ " ft)")) :=
  if_pos writable

end Board

namespace Session

variable {s : Session} {mover : TokenRef} {payload : MovementPayload} {limit : Int}

/-- What a movement within a limit does. -/
structure Limited (s : Session) (mover : TokenRef) (payload : MovementPayload) (limit : Int) :
    Prop where
  planned : (∃ route, s.Plans mover payload route) ∨ ∃ played, s.Refuses mover payload played
  within : ∀ route, s.Plans mover payload route → ∀ count,
    s.table.board.scene.pathDistance ((s.token mover).position :: route.squares.take count) ≤ limit
  follows : ∀ route, s.Plans mover payload route →
      ((s.playMovementAtOnce mover payload).1.token mover).position =
        s.placeAfter mover route route.squares.length ∧
      ∀ run pauses halt before use, s.Walks run mover payload pauses halt before use →
        (use.1.token mover).position = s.placeAfter mover route (reach pauses halt)
  stays : ∀ played, s.Refuses mover payload played →
      ((s.playMovementAtOnce mover payload).1.table.board = s.table.board ∧
        (s.playMovementAtOnce mover payload).2 = .done played) ∧
      ∀ run pauses halt before use, s.Walks run mover payload pauses halt before use →
        use = (s, .done played)
  far : ∀ goal, s.table.board.findDestination mover payload s.host.reveals = some goal →
    limit < s.table.board.scene.distance (s.token mover).position goal →
      limit < s.table.board.lengthOf mover payload goal
  long : ∀ goal, s.table.board.findDestination mover payload s.host.reveals = some goal →
    limit < s.table.board.lengthOf mover payload goal →
      s.Refuses mover payload (Board.tooFar (s.table.board.lengthOf mover payload goal) limit)
  told : ∀ length, [length, limit].all Text.isWritable = true →
    Board.tooFar length limit = .ok (.failure .outOfRange
      ("Destination exceeds movement range (" ++ toString length ++ " ft > " ++ toString limit ++
        " ft)"))

/-- A limit of a movement is kept, however its pauses go, if it is not zero: whatever the speed of
the subject and the measure of the scene, the subject moves by a part of a route that is within
the limit, and what is farther away is refused for that, if the two lengths can be written. With a
limit of zero the movement does what it does without a limit. -/
theorem limits_hold (given : payload.maxDistance = some limit) (nonneg : 0 ≤ limit)
    (listed : mover < s.table.board.roster.length) :
    (limit ≠ 0 → s.Limited mover payload limit) ∧
    (limit = 0 →
      s.playMovementAtOnce mover payload =
        s.playMovementAtOnce mover { payload with maxDistance := none } ∧
      ∀ unpaced, s.playMovement mover payload unpaced =
        s.playMovement mover { payload with maxDistance := none } unpaced) := by
  constructor
  · intro positive
    refine ⟨s.plans_or_refuses mover payload, ?_, ?_, ?_, ?_, ?_, ?_⟩
    · intro route plans count
      have within := plans.within
      rw [Board.budget_of_limit given positive] at within
      exact Scene.pathDistance_take_le_of_le (s.token mover).position nonneg within count
    · intro route plans
      obtain ⟨paces, _⟩ := playMovementAtOnce_of_plans listed plans
      refine ⟨congrArg Token.position paces.board.moved, ?_⟩
      intro run pauses halt before use walks
      have kept := walks.keepsTo listed plans
      exact (kept.began.paces kept.piece).stands
    · intro played refuses
      refine ⟨playMovementAtOnce_of_refuses refuses, ?_⟩
      intro run pauses halt before use walks
      exact walks.refused refuses
    · intro goal found far
      exact Board.lt_lengthOf_of_far nonneg found far
    · intro goal found long
      exact Board.refuses_of_long given positive found long
    · intro length writable
      exact Board.tooFar_of_writable writable
  · rintro rfl
    constructor
    · unfold playMovementAtOnce Table.movement
      rw [Board.planMovement_of_zero given]
    · intro unpaced
      unfold playMovement
      rw [Board.planMovement_of_zero given]

/-- Ten feet do not reach to a square that is fifteen feet away. -/
theorem limits_hold_short :
    let jump : MovementPayload := { waypoints := [⟨3, 0⟩], maxDistance := some 10 }
    (jump.maxDistance = some 10 ∧ (0 : Int) ≤ 10 ∧ 0 < marching.table.board.roster.length) ∧
      (marching.playMovementAtOnce 0 jump).1.table.board = marching.table.board ∧
      (marching.playMovementAtOnce 0 jump).2 = .done (Board.tooFar 15 10) := by
  intro jump
  have given : jump.maxDistance = some 10 := rfl
  have nonneg : (0 : Int) ≤ 10 := by decide
  have listed : 0 < marching.table.board.roster.length := by decide
  have limited := (limits_hold given nonneg listed).1 (by decide)
  have found : marching.table.board.findDestination 0 jump marching.host.reveals = some ⟨3, 0⟩ := rfl
  have long := limited.far ⟨3, 0⟩ found (by decide)
  obtain ⟨⟨unmoved, refused⟩, _⟩ := limited.stays _ (limited.long ⟨3, 0⟩ found long)
  exact ⟨⟨given, nonneg, listed⟩, unmoved, refused⟩

/-- A movement with a limit of zero goes fifteen feet. -/
theorem limit_of_zero_is_passed :
    let jump : MovementPayload := { waypoints := [⟨3, 0⟩], maxDistance := some 0 }
    (marching.playMovementAtOnce 0 jump).2 = .done (.ok (.moved ⟨3, 0⟩)) ∧
      ((marching.playMovementAtOnce 0 jump).1.token 0).position = ⟨3, 0⟩ ∧
      0 < marching.table.board.scene.distance (marching.token 0).position ⟨3, 0⟩ := by
  intro jump
  exact ⟨rfl, rfl, by decide⟩

end Session
end TurnScript
