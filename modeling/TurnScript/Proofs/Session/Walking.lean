import TurnScript.Proofs.Play.Routes
import TurnScript.Proofs.Play.Steps
import TurnScript.Proofs.Session.CallingOff

/-!
# Walking

A walk goes on square by square and pauses between them, and in a pause anything else can happen:
the pauses of its run can be called off at any moment. A movement is followed here through all of
its pauses, each of which ends in a session that others have changed as they like, except that they
have left the walker alone. What it has walked then is told by the number of its pauses.

Whoever calls off the pauses wakes the walk, which ends where it stands. But a pause whose time is
up takes a moment to end, and pauses that are called off in that moment are called off too late for
it: the walk goes on to one more square and ends there.
-/

namespace TurnScript.Session

/-! ## One piece of a movement -/

/-- A route that a movement has in a session. -/
abbrev Plans (s : Session) (mover : TokenRef) (payload : MovementPayload) (route : Route) : Prop :=
  s.table.board.Plans mover payload s.host.reveals s.host.settings.defaultSpeed route

/-- What a movement comes to that is refused in a session. -/
abbrev Refuses (s : Session) (mover : TokenRef) (payload : MovementPayload) (played : Played) :
    Prop :=
  s.table.board.Refuses mover payload s.host.reveals s.host.settings.defaultSpeed played

/-- A piece of a movement in a session. -/
structure Paces (s after : Session) (mover : TokenRef) (square : Position) : Prop where
  board : s.table.board.Paces after.table.board mover square
  host : after.host = s.host

variable {s before later : Session} {mover : TokenRef} {payload : MovementPayload} {route : Route}
  {run : Option RunRef} {use : Session × Progress}

/-- Going on with a walk reaches its goal, if no square is left, or steps to the next one and pauses
there, unless that cannot be timed or pauses have been called off. -/
theorem walkOn_cases (listed : mover < s.table.board.roster.length) (goal : Position)
    (unpaced : Bool) (ahead : List Position) :
    (ahead = [] ∧
      s.Paces (s.walkOn mover goal unpaced ahead).1 mover (s.token mover).position ∧
      (s.walkOn mover goal unpaced ahead).2 = .done (.ok (.moved goal))) ∨
    ∃ square rest, ahead = square :: rest ∧
      s.Paces (s.walkOn mover goal unpaced ahead).1 mover (s.table.board.landing mover square) ∧
      (s.walkOn mover goal unpaced ahead).2 =
        if isOverlong s.host.settings.waypointDelay then .done (.error .overlong)
        else if unpaced then .done (.ok (.interrupted square))
        else .held (.walk mover square rest goal) := by
  cases ahead with
  | nil => exact .inl ⟨rfl, ⟨.stay s.table.board mover, rfl⟩, rfl⟩
  | cons square rest =>
    have step := Board.Paces.step listed square
    refine .inr ⟨square, rest, rfl, ?_⟩
    simp only [walkOn]
    split
    · exact ⟨⟨step, rfl⟩, rfl⟩
    · split
      · exact ⟨⟨step, rfl⟩, rfl⟩
      · exact ⟨⟨step, rfl⟩, rfl⟩

/-! ## A movement through its pauses -/

/-- Whether and when the pauses of a movement are called off. -/
inductive Halt where
  | never
  /-- Before the movement begins. -/
  | before
  /-- In a pause, which ends by that. -/
  | inPause
  /-- When the time of a pause is up, but before the movement has gone on. -/
  | tooLate
  deriving DecidableEq

/-- What others have made of a session in a pause: whatever they like, except that they have left a
token where it stands, and in the scene if it was there. -/
structure LeavesAlone (s later : Session) (mover : TokenRef) : Prop where
  host : later.host = s.host
  roster : s.table.board.roster.length ≤ later.table.board.roster.length
  seats : later.table.board.Seats mover ↔ s.table.board.Seats mover
  position : (later.token mover).position = (s.token mover).position

/-- A movement whose pauses are those of a run, or are its own: how many of its pauses have gone to
their ends, whether and when they have been called off, the session in which its last piece began,
and how that piece has come along. A pause is cut short only where pauses have been called off. -/
inductive Walks (s : Session) (run : Option RunRef) (mover : TokenRef)
    (payload : MovementPayload) : Nat → Halt → Session → Session × Progress → Prop where
  | begun (paced : run.any s.unpaced = false) :
      Walks s run mover payload 0 .never s (s.playMovement mover payload false)
  | hurried (calledOff : run.any s.unpaced = true) :
      Walks s run mover payload 0 .before s (s.playMovement mover payload true)
  | rested {pauses : Nat} {before later : Session} {use : Session × Progress} {call : Call}
      {waking : Waking} {activity : Activity}
      (walks : Walks s run mover payload pauses .never before use)
      (held : use.2 = .held call) (alone : use.1.LeavesAlone later mover)
      (pausing : runOf activity = run) (paced : run.any later.unpaced = false)
      (ended : waking ≠ .calledOff) :
      Walks s run mover payload (pauses + 1) .never later
        (later.resume (later.wasRested waking activity) false call)
  | cut {pauses : Nat} {before later : Session} {use : Session × Progress} {call : Call}
      {waking : Waking} {activity : Activity}
      (walks : Walks s run mover payload pauses .never before use)
      (held : use.2 = .held call) (alone : use.1.LeavesAlone later mover)
      (pausing : runOf activity = run) (calledOff : run.any later.unpaced = true)
      (early : waking ≠ .elapsed) :
      Walks s run mover payload pauses .inPause later
        (later.resume (later.wasRested waking activity) true call)
  | outrun {pauses : Nat} {before later : Session} {use : Session × Progress} {call : Call}
      {activity : Activity} (walks : Walks s run mover payload pauses .never before use)
      (held : use.2 = .held call) (alone : use.1.LeavesAlone later mover)
      (calledOff : run.any later.unpaced = true) :
      Walks s run mover payload pauses .tooLate later
        (later.resume (later.wasRested .elapsed activity) true call)

/-- A pause of a run that goes on has gone to its end, unless it was cut short. -/
theorem wasRested_of_paced {waking : Waking} {activity : Activity} (pausing : runOf activity = run)
    (paced : run.any s.unpaced = false) (ended : waking ≠ .calledOff) :
    s.wasRested waking activity = true := by
  cases waking with
  | elapsed => rfl
  | calledOff => exact absurd rfl ended
  | yielded => simp only [wasRested, pausing, paced, Bool.not_false]

/-- Where pauses have been called off, only a pause whose time was up has gone to its end. -/
theorem wasRested_of_calledOff {waking : Waking} {activity : Activity}
    (pausing : runOf activity = run) (calledOff : run.any s.unpaced = true)
    (early : waking ≠ .elapsed) : s.wasRested waking activity = false := by
  cases waking with
  | elapsed => exact absurd rfl early
  | calledOff => rfl
  | yielded => simp only [wasRested, pausing, calledOff, Bool.not_true]

/-! ## How far it comes -/

/-- To how many squares a movement had gone when its last piece began. -/
def gone (pauses : Nat) : Halt → Nat
  | .never | .before => pauses
  | .inPause | .tooLate => pauses + 1

/-- To how many squares a movement has gone: to one in each piece, unless the piece is the end of a
pause that was cut short. -/
def reach (pauses : Nat) : Halt → Nat
  | .inPause => pauses + 1
  | halt => gone pauses halt + 1

/-- Where a token stands that has gone to so many squares of a route. -/
def placeAfter (s : Session) (mover : TokenRef) (route : Route) (count : Nat) : Position :=
  s.table.board.landing mover ((route.squares.take count).getLast?.getD (s.token mover).position)

/-- How a movement has come along its route. -/
inductive Along (s : Session) (mover : TokenRef) (route : Route) (pauses : Nat) (halt : Halt) :
    Progress → Prop where
  | arrived (whole : route.squares.length ≤ reach pauses halt) :
      Along s mover route pauses halt (.done (.ok (.moved route.goal)))
  | paused {here : Position} (unhalted : halt = .never)
      (timed : isOverlong s.host.settings.waypointDelay = false)
      (stands : (route.squares.take (pauses + 1)).getLast? = some here)
      (early : pauses < route.squares.length) :
      Along s mover route pauses halt
        (.held (.walk mover here (route.squares.drop (pauses + 1)) route.goal))
  | interrupted {here : Position} (halted : halt ≠ .never)
      (stands : (route.squares.take (reach pauses halt)).getLast? = some here) :
      Along s mover route pauses halt (.done (.ok (.interrupted here)))
  | untimed (first : reach pauses halt = 1)
      (overlong : isOverlong s.host.settings.waypointDelay = true) :
      Along s mover route pauses halt (.done (.error .overlong))

variable {pauses count : Nat} {halt : Halt} {square : Position}

/-- A piece of a movement goes to one more square, unless the pause before it was cut short. -/
theorem reach_of_goesOn (goesOn : halt ≠ .inPause) : reach pauses halt = gone pauses halt + 1 := by
  cases halt with
  | inPause => exact absurd rfl goesOn
  | never | before | tooLate => rfl

theorem placeAfter_zero : s.placeAfter mover route 0 = (s.token mover).position := by
  unfold placeAfter
  rw [List.take_zero, List.getLast?_nil, Option.getD_none]
  exact Board.landing_position _ _

/-- One more square. -/
theorem take_succ_of_next {rest : List Position} (next : route.squares.drop count = square :: rest) :
    (route.squares.take (count + 1)).getLast? = some square ∧
      route.squares.drop (count + 1) = rest := by
  have here : route.squares[count]? = some square := by
    rw [← List.head?_drop, next, List.head?_cons]
  constructor
  · rw [List.take_add_one, here, Option.toList_some, List.getLast?_concat]
  · rw [← List.tail_drop, next, List.tail_cons]

theorem placeAfter_succ {rest : List Position} (next : route.squares.drop count = square :: rest) :
    s.placeAfter mover route (count + 1) = s.table.board.landing mover square := by
  unfold placeAfter
  rw [(take_succ_of_next next).1, Option.getD_some]

/-- No more squares. -/
theorem placeAfter_of_le (whole : route.squares.length ≤ count) :
    s.placeAfter mover route (count + 1) = s.placeAfter mover route count := by
  unfold placeAfter
  rw [List.take_of_length_le whole, List.take_of_length_le (Nat.le_succ_of_le whole)]

/-- A session in which a token has gone to so many squares of a route. -/
structure OnRoute (s later : Session) (mover : TokenRef) (route : Route) (count : Nat) : Prop where
  stands : (later.token mover).position = s.placeAfter mover route count
  seats : later.table.board.Seats mover ↔ s.table.board.Seats mover
  listed : mover < later.table.board.roster.length
  host : later.host = s.host

theorem OnRoute.begin (listed : mover < s.table.board.roster.length) (begins : count = 0) :
    s.OnRoute s mover route count := by
  subst begins
  exact ⟨placeAfter_zero.symm, Iff.rfl, listed, rfl⟩

/-- A piece of a movement goes from one place of a route to another one. -/
theorem OnRoute.paces {next : Nat} (onRoute : s.OnRoute before mover route count)
    (paces : before.Paces later mover (s.placeAfter mover route next)) :
    s.OnRoute later mover route next := by
  constructor
  · exact congrArg Token.position paces.board.moved
  · exact paces.board.seats_iff.trans onRoute.seats
  · exact Nat.lt_of_lt_of_eq onRoute.listed paces.board.roster.symm
  · exact paces.host.trans onRoute.host

/-- What others change in a pause leaves a token on its route. -/
theorem OnRoute.leavesAlone (onRoute : s.OnRoute before mover route count)
    (alone : before.LeavesAlone later mover) : s.OnRoute later mover route count := by
  constructor
  · exact alone.position.trans onRoute.stands
  · exact alone.seats.trans onRoute.seats
  · exact Nat.lt_of_lt_of_le onRoute.listed alone.roster
  · exact alone.host.trans onRoute.host

/-- From wherever along a route a token is, it lands where it would land from its start. -/
theorem OnRoute.landing (onRoute : s.OnRoute later mover route count) (square : Position) :
    later.table.board.landing mover square = s.table.board.landing mover square := by
  by_cases seated : s.table.board.Seats mover
  · rw [Board.landing_of_seats seated, Board.landing_of_seats (onRoute.seats.mpr seated)]
  · rw [Board.landing_of_not_seats seated, Board.landing_of_not_seats (mt onRoute.seats.mp seated)]
    exact onRoute.stands.trans (Board.landing_of_not_seats seated _)

/-- A movement that keeps to its route. -/
structure KeepsTo (s : Session) (mover : TokenRef) (route : Route) (pauses : Nat) (halt : Halt)
    (before : Session) (use : Session × Progress) : Prop where
  began : s.OnRoute before mover route (gone pauses halt)
  piece : before.Paces use.1 mover (s.placeAfter mover route (reach pauses halt))
  along : s.Along mover route pauses halt use.2
  stops : halt = .inPause → use.1 = before

/-- How a walk has come along that has stepped to a square of its route. -/
theorem along_of_next {unpaced : Bool} {rest : List Position}
    (next : route.squares.drop (gone pauses halt) = square :: rest) (goesOn : halt ≠ .inPause)
    (halted : unpaced = true ↔ halt ≠ .never)
    (timed : isOverlong s.host.settings.waypointDelay = true → gone pauses halt = 0) :
    s.Along mover route pauses halt
      (if isOverlong s.host.settings.waypointDelay then .done (.error .overlong)
        else if unpaced then .done (.ok (.interrupted square))
        else .held (.walk mover square rest route.goal)) := by
  have further : reach pauses halt = gone pauses halt + 1 := reach_of_goesOn goesOn
  obtain ⟨last, left⟩ := take_succ_of_next next
  split
  · next overlong => exact .untimed (by rw [further, timed overlong]) overlong
  next timely =>
  split
  · next calledOff => exact .interrupted (halted.mp calledOff) (further ▸ last)
  · next paced =>
    have unhalted : halt = .never := Decidable.of_not_not fun cut => paced (halted.mpr cut)
    subst unhalted
    have early : pauses < route.squares.length := by
      apply Nat.lt_of_not_le
      intro whole
      rw [gone, List.drop_eq_nil_of_le whole] at next
      cases next
    rw [← left]
    exact .paused rfl (Bool.eq_false_iff.mpr timely) last early

/-- Going on with a walk that has come to a place keeps to the route. -/
theorem keepsTo_walkOn {unpaced : Bool} (onRoute : s.OnRoute later mover route (gone pauses halt))
    (goesOn : halt ≠ .inPause) (halted : unpaced = true ↔ halt ≠ .never)
    (timed : isOverlong s.host.settings.waypointDelay = true → gone pauses halt = 0) :
    s.KeepsTo mover route pauses halt later
      (later.walkOn mover route.goal unpaced (route.squares.drop (gone pauses halt))) := by
  have further : reach pauses halt = gone pauses halt + 1 := reach_of_goesOn goesOn
  rcases walkOn_cases onRoute.listed route.goal unpaced (route.squares.drop (gone pauses halt)) with
    ⟨none, paces, told⟩ | ⟨square, rest, next, paces, told⟩
  · have whole : route.squares.length ≤ gone pauses halt := List.drop_eq_nil_iff.mp none
    refine ⟨onRoute, ?_, ?_, fun same => absurd same goesOn⟩
    · rw [further, placeAfter_of_le whole, ← onRoute.stands]
      exact paces
    · rw [told]
      exact .arrived (further ▸ Nat.le_succ_of_le whole)
  · refine ⟨onRoute, ?_, ?_, fun same => absurd same goesOn⟩
    · rw [further, placeAfter_succ next, ← onRoute.landing]
      exact paces
    · rw [told, onRoute.host]
      exact along_of_next next goesOn halted timed

/-- A movement that jumps goes to its one square at once. -/
theorem keepsTo_jump {unpaced : Bool} (listed : mover < s.table.board.roster.length)
    (squares : route.squares = [route.goal]) (begins : gone 0 halt = 0) (first : reach 0 halt = 1)
    (goesOn : halt ≠ .inPause) :
    s.KeepsTo mover route 0 halt s
      ({ s with table := s.table.step (s.token mover).id route.goal }.walkOn mover route.goal
        unpaced []) := by
  have place : s.placeAfter mover route 1 = s.table.board.landing mover route.goal := by
    unfold placeAfter
    rw [squares]
    rfl
  refine ⟨.begin listed begins, ⟨?_, rfl⟩, .arrived ?_, fun same => absurd same goesOn⟩
  · rw [first, place]
    exact Board.Paces.step listed route.goal
  · rw [squares, first]
    exact Nat.le_refl 1

/-- A movement that has a route keeps to it, as it begins. -/
theorem keepsTo_playMovement {unpaced : Bool} (listed : mover < s.table.board.roster.length)
    (plans : s.Plans mover payload route) (begins : gone 0 halt = 0)
    (halted : unpaced = true ↔ halt ≠ .never) :
    s.KeepsTo mover route 0 halt s (s.playMovement mover payload unpaced) := by
  have goesOn : halt ≠ .inPause := by
    rintro rfl
    cases begins
  have onRoute : s.OnRoute s mover route (gone 0 halt) := .begin listed begins
  unfold playMovement
  rw [Board.plans_iff.mpr plans]
  dsimp only
  split
  · have walk := keepsTo_walkOn onRoute goesOn halted fun _ => begins
    rwa [begins] at walk
  · next jumps =>
    have squares : route.squares = [route.goal] := by
      rw [plans.squares, MovementPayload.squares, ← plans.walked, if_neg jumps]
    have first : reach 0 halt = 1 := by rw [reach_of_goesOn goesOn, begins]
    exact keepsTo_jump listed squares begins first goesOn

/-- Where a movement that keeps to its route has been held, it is held in the pause on a square. -/
theorem KeepsTo.pausing {call : Call} (kept : s.KeepsTo mover route pauses .never before use)
    (held : use.2 = .held call) :
    isOverlong s.host.settings.waypointDelay = false ∧
      ∃ here, call = .walk mover here (route.squares.drop (pauses + 1)) route.goal ∧
        (route.squares.take (pauses + 1)).getLast? = some here := by
  have along := kept.along
  rw [held] at along
  cases along with
  | paused _ timed stands => exact ⟨timed, _, rfl, stands⟩

/-- A movement that has a route keeps to it, whatever happens in its pauses. -/
theorem Walks.keepsTo (listed : mover < s.table.board.roster.length)
    (plans : s.Plans mover payload route)
    (walks : s.Walks run mover payload pauses halt before use) :
    s.KeepsTo mover route pauses halt before use := by
  induction walks with
  | begun paced => exact keepsTo_playMovement listed plans rfl (by simp)
  | hurried calledOff => exact keepsTo_playMovement listed plans rfl (by simp)
  | @rested pauses before later use call waking activity walks held alone pausing paced ended kept =>
    have onRoute : s.OnRoute later mover route (gone (pauses + 1) .never) :=
      (kept.began.paces kept.piece).leavesAlone alone
    obtain ⟨timed, here, rfl, _⟩ := kept.pausing held
    rw [wasRested_of_paced pausing paced ended]
    exact keepsTo_walkOn onRoute Halt.noConfusion (by simp) fun overlong =>
      absurd (overlong.symm.trans timed) Bool.noConfusion
  | @cut pauses before later use call waking activity walks held alone pausing calledOff early
      kept =>
    have onRoute : s.OnRoute later mover route (gone pauses .inPause) :=
      (kept.began.paces kept.piece).leavesAlone alone
    obtain ⟨_, here, rfl, stands⟩ := kept.pausing held
    rw [wasRested_of_calledOff pausing calledOff early]
    have stays := Board.Paces.stay later.table.board mover
    refine ⟨onRoute, ⟨?_, rfl⟩, .interrupted Halt.noConfusion stands, fun _ => rfl⟩
    exact onRoute.stands ▸ stays
  | @outrun pauses before later use call activity walks held alone calledOff kept =>
    have onRoute : s.OnRoute later mover route (gone pauses .tooLate) :=
      (kept.began.paces kept.piece).leavesAlone alone
    obtain ⟨timed, here, rfl, _⟩ := kept.pausing held
    exact keepsTo_walkOn onRoute Halt.noConfusion (by simp) fun overlong =>
      absurd (overlong.symm.trans timed) Bool.noConfusion

/-! ## What a movement does -/

/-- A movement has a route, or it is refused. -/
theorem plans_or_refuses (s : Session) (mover : TokenRef) (payload : MovementPayload) :
    (∃ route, s.Plans mover payload route) ∨ ∃ played, s.Refuses mover payload played := by
  cases planned : s.table.board.planMovement mover payload s.host.reveals
    s.host.settings.defaultSpeed with
  | ok route => exact .inl ⟨route, Board.plans_iff.mp planned⟩
  | error played => exact .inr ⟨played, Board.refuses_iff.mp planned⟩

/-- A movement without pauses goes along the whole of its route. -/
theorem playMovementAtOnce_of_plans (listed : mover < s.table.board.roster.length)
    (plans : s.Plans mover payload route) :
    s.Paces (s.playMovementAtOnce mover payload).1 mover
        (s.placeAfter mover route route.squares.length) ∧
      (s.playMovementAtOnce mover payload).2 = .done (.ok (.moved route.goal)) := by
  have steps := Board.paces_steps listed rfl route.squares
  have board : (route.squares.foldl
      (fun table square => table.step (s.table.token mover).id square) s.table).board =
        route.squares.foldl (fun b square => (b.move (s.table.token mover).id square).2)
          s.table.board := by
    exact (List.foldl_hom Table.board fun _ _ => rfl).symm
  unfold playMovementAtOnce Table.movement
  rw [Board.plans_iff.mpr plans]
  refine ⟨⟨?_, rfl⟩, rfl⟩
  unfold placeAfter
  rw [List.take_length]
  change s.table.board.Paces (List.foldl _ s.table route.squares).board mover _
  rw [board]
  exact steps

/-- A movement that is refused ends as it begins, and does nothing. -/
theorem Walks.refused {played : Played} (refuses : s.Refuses mover payload played)
    (walks : s.Walks run mover payload pauses halt before use) : use = (s, .done played) := by
  have begins : ∀ unpaced, s.playMovement mover payload unpaced = (s, .done played) := by
    intro unpaced
    unfold playMovement
    rw [Board.refuses_iff.mpr refuses]
  induction walks with
  | begun paced => exact begins false
  | hurried calledOff => exact begins true
  | rested walks held alone pausing paced ended refusal =>
    rw [refusal] at held
    cases held
  | cut walks held alone pausing calledOff early refusal =>
    rw [refusal] at held
    cases held
  | outrun walks held alone calledOff refusal =>
    rw [refusal] at held
    cases held

theorem playMovementAtOnce_of_refuses {played : Played} (refuses : s.Refuses mover payload played) :
    (s.playMovementAtOnce mover payload).1.table.board = s.table.board ∧
      (s.playMovementAtOnce mover payload).2 = .done played := by
  unfold playMovementAtOnce Table.movement
  rw [Board.refuses_iff.mpr refuses]
  exact ⟨rfl, rfl⟩

/-- Where a token stands that is moved along a route. -/
theorem placeAfter_of_seats (seated : s.table.board.Seats mover) (count : Nat) :
    s.placeAfter mover route count =
      (route.squares.take count).getLast?.getD (s.token mover).position :=
  Board.landing_of_seats seated _

/-- A movement that has gone its whole way stands at its goal. -/
theorem placeAfter_length (seated : s.table.board.Seats mover)
    (plans : s.Plans mover payload route) :
    s.placeAfter mover route route.squares.length = route.goal := by
  rw [placeAfter_of_seats seated, List.take_length, plans.ends, Option.getD_some]

/-- An outcome of a movement that has begun is a success, and only a movement whose pauses are called
off ends before its goal. -/
theorem KeepsTo.outcome {outcome : Outcome}
    (kept : s.KeepsTo mover route pauses halt before use) (seated : s.table.board.Seats mover)
    (plans : s.Plans mover payload route) (ended : use.2 = .done (.ok outcome)) :
    outcome.success = true ∧
      (halt = .never → outcome = .moved route.goal ∧
        (use.1.token mover).position = route.goal) := by
  have along := kept.along
  rw [ended] at along
  cases along with
  | interrupted halted => exact ⟨rfl, fun never => absurd never halted⟩
  | arrived whole =>
    refine ⟨rfl, fun _ => ⟨rfl, ?_⟩⟩
    rw [← placeAfter_length seated plans, (kept.began.paces kept.piece).stands]
    unfold placeAfter
    rw [List.take_of_length_le whole, List.take_length]

/-- A board with one token on it. -/
def lonely : Board :=
  ({} : Board).addToken { id := "hero", name := "hero" }

/-- A run that has a movement to play. -/
def marching : Session :=
  { table := { board := lonely }
    engine := { executing := true, active := some 0,
                entries := [⟨0, .begin [{ id := "march" }]⟩] } }

end TurnScript.Session
