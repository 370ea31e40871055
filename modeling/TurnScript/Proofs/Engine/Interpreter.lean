import TurnScript.Proofs.Engine.Recording
import TurnScript.Proofs.Engine.SingleFlight
import TurnScript.Session.Activity

/-!
# The sequential reading of a script

Read in one go, a script is a fold over its enabled actions in execution order. What it cannot
know by itself is given beforehand: how things stand at the first condition, at the second, and so
on, and what becomes of the first dispatch, the second, and so on.

An engine does not run a script in one go. Between any two steps of a run other scripts arrive and
are dropped, the state of the engine is asked for, and stopped runs come to their end. The
reading is nevertheless all that a run does: at every moment the run has begun a part of the
dispatches of the reading, and if it comes to its end undisturbed it has done exactly the reading.

The proof follows a run by what is left of its reading at the stage where it stands. What has been
done, completed by what is left, is the whole reading at every moment of an undisturbed run. For
a run that was cut short only its dispatches are compared, and they are a first part.
-/

namespace TurnScript

/-- What a script meets with as it is read, in the order of time. -/
structure Surroundings where
  sights : Nat → Sight
  outcomes : Nat → Outcome

/-- What the reading of a script has come to. -/
structure Reading where
  asked : Nat := 0
  skipped : Nat := 0
  dispatched : List Action := []
  ledger : Ledger := []

namespace Reading

variable (world : Surroundings) (script : List Action)

/-- Dispatch an action and record its outcome. -/
def dispatch (reading : Reading) (action : Action) : Reading :=
  { reading with
    dispatched := reading.dispatched ++ [action]
    ledger := reading.ledger.record action.id (world.outcomes reading.dispatched.length) }

/-- Dispatch the branch target of an action, if there is one. -/
def branch (reading : Reading) (action : Action) (outcome : Outcome) : Reading :=
  match Run.target? script action outcome with
  | some target => reading.dispatch world target
  | none => reading

/-- Dispatch an action, and then at most one branch target. -/
def perform (reading : Reading) (action : Action) : Reading :=
  (reading.dispatch world action).branch world script action
    (world.outcomes reading.dispatched.length)

/-- Take up an action: skip it if its condition does not hold, else perform it. -/
def take (reading : Reading) (action : Action) : Reading :=
  let sight := world.sights reading.asked
  let asked := { reading with asked := reading.asked + 1 }
  if action.condition.verdict sight.token reading.ledger sight.range then
    asked.perform world script action
  else { asked with skipped := asked.skipped + 1 }

end Reading

/-- The sequential reading of a script. -/
def interpret (world : Surroundings) (script : List Action) : Reading :=
  (runnable script).foldl (Reading.take world script) {}

namespace Reading

/-- What a reading comes to that has yet to do what is left at a stage. -/
def finish (world : Surroundings) (script : List Action) (reading : Reading) : Stage → Reading
  | .asking action rest => (action :: rest).foldl (take world script) reading
  | .skipping _ rest | .settling rest => rest.foldl (take world script) reading
  | .acting action rest => rest.foldl (take world script) (reading.perform world script action)
  | .pacing action outcome rest =>
    rest.foldl (take world script) (reading.branch world script action outcome)
  | .branching target rest => rest.foldl (take world script) (reading.dispatch world target)
  | .reporting | .failing _ | .ended _ => reading

variable (world : Surroundings) (script : List Action) (reading : Reading)

theorem prefix_of_branch (action : Action) (outcome : Outcome) :
    reading.dispatched <+: (reading.branch world script action outcome).dispatched := by
  unfold branch
  split
  · exact List.prefix_append _ _
  · exact List.prefix_rfl

theorem prefix_of_perform (action : Action) :
    reading.dispatched ++ [action] <+: (reading.perform world script action).dispatched :=
  prefix_of_branch world script (reading.dispatch world action) action _

theorem prefix_of_take (action : Action) :
    reading.dispatched <+: (reading.take world script action).dispatched := by
  unfold take
  dsimp only
  split
  · exact (List.prefix_append _ _).trans
      (prefix_of_perform world script { reading with asked := reading.asked + 1 } action)
  · exact List.prefix_rfl

/-- Reading on only adds dispatches. -/
theorem prefix_of_foldl (rest : List Action) :
    reading.dispatched <+: (rest.foldl (take world script) reading).dispatched := by
  induction rest generalizing reading with
  | nil => exact List.prefix_rfl
  | cons action rest inductionHypothesis =>
    exact (prefix_of_take world script reading action).trans (inductionHypothesis _)

end Reading

/-- Surroundings in which all has happened that some news tell of. -/
structure Surroundings.Meets (world : Surroundings) (news : List News) : Prop where
  sights : ∀ n sight, (sightsOf news)[n]? = some sight → world.sights n = sight
  outcomes : ∀ n play, (playsOf news)[n]? = some play → world.outcomes n = play.2

/-- The surroundings that some news tell of. -/
def Surroundings.toldBy (news : List News) : Surroundings where
  sights n := (sightsOf news).getD n ⟨default, .noChecker⟩
  outcomes n := ((playsOf news)[n]?.map (·.2)).getD default

theorem Surroundings.toldBy_meets (news : List News) : (toldBy news).Meets news where
  sights n sight found := by simp [toldBy, List.getD, found]
  outcomes n play found := by simp [toldBy, found]

theorem Surroundings.Meets.earlier {world : Surroundings} {earlier later : List News}
    (met : world.Meets (earlier ++ later)) : world.Meets earlier where
  sights n sight found := by
    have within : n < (sightsOf earlier).length := (List.getElem?_eq_some_iff.mp found).1
    refine met.sights n sight ?_
    rw [sightsOf_append, List.getElem?_append_left within]
    exact found
  outcomes n play found := by
    have within : n < (playsOf earlier).length := (List.getElem?_eq_some_iff.mp found).1
    refine met.outcomes n play ?_
    rw [playsOf_append, List.getElem?_append_left within]
    exact found

namespace Run

/-- What a run has done of the reading of its script. -/
def reading (r : Run) (news : List News) : Reading where
  asked := (sightsOf news).length
  skipped := r.skipped
  dispatched := (playsOf news).map (·.1)
  ledger := r.ledger

/-- Whether a run has been cut short. -/
def isCut (r : Run) : Bool :=
  match r.stage with
  | .failing _ | .ended (.raised _) | .ended (.finished true) => true
  | _ => false

/-- A run follows the reading of its script: what it has done and what is left make up the whole,
or it was cut short and has dispatched a first part. -/
def OnCourse (r : Run) (world : Surroundings) (news : List News) : Prop :=
  if r.isCut then (r.reading news).dispatched <+: (interpret world r.script).dispatched
  else (r.reading news).finish world r.script r.stage = interpret world r.script

variable {r next : Run} {world : Surroundings} {news : List News} {latest : News}

theorem OnCourse.of_cut (cut : r.isCut = true)
    (done : (playsOf news).map (·.1) <+: (interpret world r.script).dispatched) :
    r.OnCourse world news := by
  rw [OnCourse, if_pos cut]
  exact done

theorem OnCourse.of_left (uncut : r.isCut = false)
    (left : (r.reading news).finish world r.script r.stage = interpret world r.script) :
    r.OnCourse world news := by
  rw [OnCourse, if_neg (by simp [uncut])]
  exact left

theorem OnCourse.left (course : r.OnCourse world news) (uncut : r.isCut = false) :
    (r.reading news).finish world r.script r.stage = interpret world r.script := by
  rw [OnCourse, if_neg (by simp [uncut])] at course
  exact course

/-- A reading that goes on from what a run has done begins with the dispatches of the run. -/
theorem prefix_of_left {rest : List Action} {reading : Reading}
    (further : (playsOf news).map (·.1) <+: reading.dispatched)
    (left : rest.foldl (Reading.take world r.script) reading = interpret world r.script) :
    (playsOf news).map (·.1) <+: (interpret world r.script).dispatched :=
  left ▸ further.trans (Reading.prefix_of_foldl world r.script reading rest)

/-- Whichever way a run follows its reading, it has dispatched a first part of it, and so has it
with the dispatch that is under way. -/
theorem OnCourse.prefix_of_begun (course : r.OnCourse world news) :
    (playsOf news).map (·.1) ++ r.played?.toList <+: (interpret world r.script).dispatched := by
  cases cut : r.isCut with
  | true =>
    have idle : r.played? = none := by
      cases standing : r.stage <;> simp_all [isCut, played?]
    rw [OnCourse, if_pos cut] at course
    rw [idle, Option.toList_none, List.append_nil]
    exact course
  | false =>
    rw [← course.left cut]
    cases standing : r.stage with
    | acting action rest =>
      simp only [played?, standing, Reading.finish]
      exact (Reading.prefix_of_perform world r.script (r.reading news) action).trans
        (Reading.prefix_of_foldl world r.script _ rest)
    | branching target rest =>
      simp only [played?, standing, Reading.finish]
      exact Reading.prefix_of_foldl world r.script ((r.reading news).dispatch world target) rest
    | asking action rest =>
      simp only [played?, standing, Reading.finish, Option.toList_none, List.append_nil]
      exact Reading.prefix_of_foldl world r.script (r.reading news) (action :: rest)
    | skipping action rest | settling rest =>
      simp only [played?, standing, Reading.finish, Option.toList_none, List.append_nil]
      exact Reading.prefix_of_foldl world r.script (r.reading news) rest
    | pacing action outcome rest =>
      simp only [played?, standing, Reading.finish, Option.toList_none, List.append_nil]
      exact (Reading.prefix_of_branch world r.script (r.reading news) action outcome).trans
        (Reading.prefix_of_foldl world r.script _ rest)
    | reporting | failing | ended =>
      simp only [played?, standing, Reading.finish, Option.toList_none, List.append_nil]
      exact List.prefix_rfl

/-- A run that has begun has its whole reading left. -/
theorem onCourse_begin (world : Surroundings) (script : List Action) :
    (begin script).OnCourse world [] := by
  rcases begin_cases script with ⟨action, ahead, listed, begun⟩ | ⟨empty, begun⟩
  · rw [begun]
    simp [OnCourse, isCut, reading, Reading.finish, interpret, listed, sightsOf, playsOf]
  · rw [begun]
    simp [OnCourse, isCut, reading, Reading.finish, interpret, empty, sightsOf, playsOf]

/-- A run that has just begun is not cut short. -/
theorem begin_uncut (script : List Action) : (begin script).isCut = false := by
  rcases begin_cases script with ⟨action, ahead, _, begun⟩ | ⟨_, begun⟩
  · rw [begun]
    rfl
  · rw [begun]
    rfl

/-- A run that walks on follows its reading, if what is left is the rest of its walk. A run that
was stopped leaves the rest undone. -/
theorem onCourse_walk {rest : List Action}
    (left : rest.foldl (Reading.take world r.script) (r.reading news) =
      interpret world r.script) :
    (r.walk (!r.stopped) rest).OnCourse world news := by
  rcases r.walk_cases (!r.stopped) rest with ⟨action, ahead, rfl, _, walked⟩ | ⟨ended, walked⟩
  · rw [walked]
    exact .of_left rfl left
  · rw [walked]
    cases stopped : r.stopped with
    | true =>
      refine .of_cut (by simp [isCut, close, stopped]) ?_
      rw [close_keeps]
      exact prefix_of_left List.prefix_rfl left
    | false =>
      have empty : rest = [] := by simpa [stopped] using ended
      subst empty
      refine .of_left (by simp [isCut, close, stopped]) ?_
      have closed : r.close.stage = .reporting := by simp [close, stopped]
      rw [close_keeps, closed]
      exact left

/-- News that are neither a verdict nor an outcome leave what has been done as it is. -/
theorem reading_of_idle (unsighted : latest.sight? = none) (unplayed : latest.play? = none) :
    r.reading (news ++ [latest]) = r.reading news := by
  simp [reading, unsighted, unplayed]

/-- News that make a run do the next piece of its reading keep it on course. -/
theorem OnCourse.moves (course : r.OnCourse world news)
    (moves : r.Moves (!r.stopped) latest next) (met : world.Meets (news ++ [latest])) :
    next.OnCourse world (news ++ [latest]) := by
  have begun := course.prefix_of_begun
  cases moves with
  | @accept action rest token range standing holds =>
    have seen : world.sights (sightsOf news).length = ⟨token, range⟩ :=
      met.sights _ _ (by simp [News.sight?])
    have left := course.left (by simp [isCut, standing])
    refine .of_left rfl ?_
    rw [← left, standing]
    simp [Reading.finish, Reading.take, reading, seen, holds, News.sight?, News.play?]
  | @decline action rest token range standing fails =>
    have seen : world.sights (sightsOf news).length = ⟨token, range⟩ :=
      met.sights _ _ (by simp [News.sight?])
    have left := course.left (by simp [isCut, standing])
    refine .of_left rfl ?_
    rw [← left, standing]
    simp [Reading.finish, Reading.take, reading, seen, fails, News.sight?, News.play?]
  | passBy standing =>
    have left := course.left (by simp [isCut, standing])
    rw [standing] at left
    refine onCourse_walk ?_
    rw [reading_of_idle rfl rfl]
    exact left
  | @score action rest outcome standing =>
    have become : world.outcomes (playsOf news).length = outcome :=
      met.outcomes _ (action, outcome) (by simp [News.play?])
    have left := course.left (by simp [isCut, standing])
    refine .of_left rfl ?_
    change _ = interpret world r.script
    rw [← left, standing]
    simp [Reading.finish, Reading.perform, Reading.dispatch, record, reading, become,
      News.sight?, News.play?]
  | turnAside standing _ found =>
    have left := course.left (by simp [isCut, standing])
    refine .of_left rfl ?_
    rw [← left, standing]
    simp [Reading.finish, Reading.branch, found, reading, News.sight?, News.play?]
  | @goOn action outcome rest standing straight =>
    have left := course.left (by simp [isCut, standing])
    rw [standing] at left
    by_cases stopped : r.stopped = true
    · rw [stopped, Bool.not_true, walk_false]
      refine .of_cut (by simp [isCut, close, stopped]) ?_
      rw [close_keeps]
      simpa [News.play?, played?, standing] using begun
    · have direct : target? r.script action outcome = none := straight (by simpa using stopped)
      refine onCourse_walk ?_
      rw [reading_of_idle rfl rfl, ← left]
      simp [Reading.finish, Reading.branch, direct]
  | @scoreAside target rest outcome standing =>
    have become : world.outcomes (playsOf news).length = outcome :=
      met.outcomes _ (target, outcome) (by simp [News.play?])
    have left := course.left (by simp [isCut, standing])
    refine .of_left rfl ?_
    change _ = interpret world r.script
    rw [← left, standing]
    simp [Reading.finish, Reading.dispatch, record, reading, become, News.sight?,
      News.play?]
  | comeBack standing =>
    have left := course.left (by simp [isCut, standing])
    rw [standing] at left
    refine onCourse_walk ?_
    rw [reading_of_idle rfl rfl]
    exact left
  | finish standing =>
    have left := course.left (by simp [isCut, standing])
    refine .of_left rfl ?_
    rw [← left, standing]
    exact reading_of_idle rfl rfl
  | giveUp standing | collapse _ standing =>
    refine .of_cut rfl ?_
    simpa [News.play?, played?, standing] using begun
  | stumble | overrun =>
    refine .of_cut rfl ?_
    have done := (List.prefix_append _ _).trans begun
    simpa [News.play?] using done

/-- A run is cut short only by a stop, by a notice that failed, or by a pause that cannot be
timed. -/
theorem Moves.isCut {active : Bool} (moves : r.Moves active latest next)
    (cut : next.isCut = true) :
    r.isCut = true ∨ r.stopped = true ∨ (∃ mishap, latest = .failed mishap) ∨
      latest = .overran := by
  cases moves with
  | @passBy _ rest | @goOn _ _ rest | @comeBack rest =>
    rcases r.walk_cases active rest with ⟨_, _, _, _, walked⟩ | ⟨_, walked⟩
    · rw [walked] at cut
      cases cut
    · rw [walked] at cut
      cases stopped : r.stopped <;> simp_all [Run.isCut, close]
  | giveUp standing => exact .inl (by simp [Run.isCut, standing])
  | collapse mishap => exact .inr (.inr (.inl ⟨mishap, rfl⟩))
  | stumble mishap => exact .inr (.inr (.inl ⟨mishap, rfl⟩))
  | overrun => exact .inr (.inr (.inr rfl))
  | _ => cases cut

/-- So once a run is cut short, one of these is found in what has befallen it. -/
theorem Moves.isCut_cause (moves : r.Moves (!r.stopped) latest next)
    (cause : r.isCut = true →
      r.stopped = true ∨ (∃ mishap, .failed mishap ∈ news) ∨ .overran ∈ news)
    (cut : next.isCut = true) :
    next.stopped = true ∨ (∃ mishap, .failed mishap ∈ news ++ [latest]) ∨
      .overran ∈ news ++ [latest] := by
  rcases moves.isCut cut with cutBefore | stopped | ⟨mishap, rfl⟩ | rfl
  · rcases cause cutBefore with stopped | ⟨mishap, failed⟩ | overran
    · exact .inl (moves.keeps.2.1.trans stopped)
    · exact .inr (.inl ⟨mishap, List.mem_append_left _ failed⟩)
    · exact .inr (.inr (List.mem_append_left _ overran))
  · exact .inl (moves.keeps.2.1.trans stopped)
  · exact .inr (.inl ⟨mishap, by simp⟩)
  · exact .inr (.inr (by simp))

end Run

namespace Engine

variable {σ : Type} {e : Engine σ} {ref : RunRef} {r : Run} {world : Surroundings}
  {history : List (Happening σ)}

/-- A run that follows its reading does so after every history. -/
theorem Sound.onCourse_after {news : List News} (sound : e.Sound) (known : e.run? ref = some r)
    (course : r.OnCourse world news) (allowed : e.allows history = true)
    (met : world.Meets (news ++ newsFor ref history)) :
    ∃ next, (e.after history).run? ref = some next ∧
      next.OnCourse world (news ++ newsFor ref history) := by
  obtain ⟨next, knownNext, followed⟩ := sound.run_induction
    (motive := fun news r => world.Meets news → r.OnCourse world news) known news (fun _ => course)
    (fun _ _ course met => course met)
    (fun _ _ _ _ course moves met => (course met.earlier).moves moves met) allowed
  exact ⟨next, knownNext, followed met⟩

/-- A run that is cut short has been stopped, or a notice or a pause of it has failed. -/
theorem Sound.isCut_after (sound : e.Sound) (known : e.run? ref = some r)
    (whole : r.isCut = false) (allowed : e.allows history = true) :
    ∃ next, (e.after history).run? ref = some next ∧ (next.isCut = true →
      next.stopped = true ∨ (∃ mishap, .failed mishap ∈ newsFor ref history) ∨
        .overran ∈ newsFor ref history) := by
  exact sound.run_induction
    (motive := fun news r => r.isCut = true →
      r.stopped = true ∨ (∃ mishap, .failed mishap ∈ news) ∨ .overran ∈ news)
    known [] (fun cut => by rw [whole] at cut; cases cut) (fun _ _ _ _ => .inl rfl)
    (fun _ _ _ _ cause moves cut => moves.isCut_cause cause cut) allowed

end Engine

/-- Nothing has kept a run from its reading: it was not stopped, all its notices were taken, and
all its pauses could be timed. -/
structure Run.Undisturbed (r : Run) (news : List News) : Prop where
  unstopped : r.stopped = false
  noticed : ∀ mishap, .failed mishap ∉ news
  timed : .overran ∉ news

/-- A run that came to its end and was not cut short has done its whole reading. -/
theorem Run.OnCourse.whole {r : Run} {world : Surroundings} {news : List News}
    (course : r.OnCourse world news) (finished : r.isOver = true) (uncut : r.isCut = false) :
    r.stage = .ended (.finished false) ∧ r.reading news = interpret world r.script := by
  have left := course.left uncut
  cases standing : r.stage with
  | ended how =>
    cases how with
    | raised mishap => simp [Run.isCut, standing] at uncut
    | finished stopped =>
      cases stopped with
      | true => simp [Run.isCut, standing] at uncut
      | false =>
        rw [standing] at left
        exact ⟨rfl, left⟩
  | _ => simp [Run.isOver, standing] at finished

namespace Engine

variable {σ : Type} {e : Engine σ} {world : Surroundings} {history : List (Happening σ)}

/-- A run does the sequential reading of its script, whatever else happens to the engine: other
scripts that arrive, in vain or not, stops of other runs, late outcomes of theirs, and questions
about its state. At every moment it has begun a first part of the dispatches of the reading. If
nothing has kept it from its reading and it is over, it has done all of it. Its ledger has a place
for each id in the order of first recording, with the latest outcome of the id. It comes to its
end after a bounded number of news, and till then it waits for some. -/
theorem refines_interpreter {subject : σ} {script : List Action} (reached : e.Reached)
    (free : e.executing = false)
    (allowed : (e.effect (.arrived subject script)).allows history = true)
    (met : world.Meets (newsFor e.entries.length history)) :
    ∃ r, ((e.effect (.arrived subject script)).after history).run? e.entries.length = some r ∧
      begunBy e.entries.length ((e.effect (.arrived subject script)).deeds history) <+:
        (interpret world script).dispatched ∧
      (r.Undisturbed (newsFor e.entries.length history) → r.isOver = true →
        r.stage = .ended (.finished false) ∧
        begunBy e.entries.length ((e.effect (.arrived subject script)).deeds history) =
          (interpret world script).dispatched ∧
        r.ledger = (interpret world script).ledger ∧
        r.executed = (interpret world script).dispatched.length ∧
        r.skipped = (interpret world script).skipped) ∧
      Ordered.keys r.ledger =
        (idsOf (playsOf (newsFor e.entries.length history))).eraseDups ∧
      (∀ id, Ordered.get? r.ledger id =
        latest? (playsOf (newsFor e.entries.length history)) id) ∧
      (newsFor e.entries.length history).length + r.rank ≤ (Run.begin script).rank ∧
      (r.isOver = false → ∃ news, r.awaits news = true) := by
  have sound : (e.effect (.arrived subject script)).Sound := reached.sound.arrived subject script
  have known := run?_begun subject script free
  obtain ⟨r, knownAfter, course⟩ :=
    sound.onCourse_after known (Run.onCourse_begin world script) allowed met
  obtain ⟨_, sameCut, cause⟩ := sound.isCut_after known (Run.begin_uncut script) allowed
  obtain ⟨_, sameRun, scripted, ledger, executed, begun, ranked⟩ := arrived_after free allowed
  obtain rfl := Option.some.inj (knownAfter.symm.trans sameCut)
  obtain rfl := Option.some.inj (knownAfter.symm.trans sameRun)
  refine ⟨r, knownAfter, ?_, ?_, ?_, ?_, ranked, Run.exists_awaits⟩
  · rw [begun, ← scripted]
    exact course.prefix_of_begun
  · intro undisturbed finished
    have uncut : r.isCut = false := by
      cases cut : r.isCut with
      | false => rfl
      | true =>
        rcases cause cut with stopped | ⟨mishap, failed⟩ | overran
        · rw [undisturbed.unstopped] at stopped
          cases stopped
        · exact absurd failed (undisturbed.noticed mishap)
        · exact absurd overran undisturbed.timed
    obtain ⟨ended, whole⟩ := course.whole finished uncut
    have idle : r.played? = none := by simp [Run.played?, ended]
    rw [idle, Option.toList_none, List.append_nil] at begun
    rw [begun, ← scripted, ← whole]
    refine ⟨ended, rfl, rfl, ?_, rfl⟩
    simpa [Run.reading] using executed
  · rw [ledger]
    exact Ledger.keys_recordAll _
  · intro id
    rw [ledger]
    exact Ledger.get?_recordAll _ id

/-- A pause that cannot be timed breaks a run off, even where there would be nothing to wait for,
and though nobody has stopped the run and all its notices were taken: of the two dispatches that
the reading has in any surroundings it has begun one. -/
theorem overlong_pause_breaks_off :
    let walk : Action := { id := "walk", onSuccess := some "sneak", onFailure := some "sneak" }
    let script : List Action := [walk, { id := "sneak", enabled := false }]
    let host : Host := { movement := .cued, settings := { pacingDelay := -Int.pow 10 400 } }
    let session : Session := (({ host } : Session).run 0 script).1
    (session.engine.run? 0).map (fun r => (r.stage, r.stopped, Ordered.keys r.ledger)) =
      some (.ended (.raised .overlong), false, ["walk"]) ∧
    ∀ world, (interpret world script).dispatched.map (·.id) = ["walk", "sneak"] := by
  constructor
  · decide +kernel
  · intro world
    cases success : (world.outcomes 0).success <;>
      simp [interpret, runnable, sortedByOrder, Reading.take, Reading.perform, Reading.dispatch,
        Reading.branch, Condition.verdict, Condition.check, Run.target?, Action.branchAfter,
        nonempty, findAction?, success]

/-- An action that leads aside to the strike. -/
def advance : Action := { id := "advance", order := 1, onSuccess := some "strike" }

/-- An action that is not to be tried again once it has missed. -/
def strike : Action :=
  { id := "strike", kind := .attack, order := 2, condition := { kind := .attackHit } }

/-- While a run is under way another script arrives in vain, and the state of the engine is asked
for. The first action of the run leads aside to the second one, which misses there, and whose
condition does not hold later. -/
def sidelong : List (Happening String) :=
  [.told 0 (.judged advance default .noChecker), .arrived "rogue" [{ id := "sneak" }],
    .told 0 (.played advance { success := true }), .queried, .told 0 .rested,
    .told 0 (.played strike { success := false, kind := .attack, hit := some false }),
    .told 0 .rested, .told 0 (.judged strike default .noChecker), .told 0 .noted,
    .told 0 .noted]

/-- The run comes to the end of its reading: two dispatches and one action that is skipped. -/
theorem refines_interpreter_sidelong :
    let world := Surroundings.toldBy (newsFor 0 sidelong)
    let start := ({} : Engine String).effect (.arrived "hero" [strike, advance])
    world.Meets (newsFor 0 sidelong) ∧ start.allows sidelong = true ∧
    (interpret world [strike, advance]).dispatched = [advance, strike] ∧
    begunBy 0 (start.deeds sidelong) = (interpret world [strike, advance]).dispatched ∧
    (interpret world [strike, advance]).skipped = 1 := by
  intro world start
  have met : world.Meets (newsFor 0 sidelong) := Surroundings.toldBy_meets _
  have allowed : start.allows sidelong = true := by cbv
  obtain ⟨r, known, _, whole, _⟩ := refines_interpreter (e := {}) ⟨[], rfl, rfl⟩ rfl allowed met
  have stage : ((start.after sidelong).run? 0).map (fun r => (r.stage, r.stopped)) =
      some (.ended (.finished false), false) := by cbv
  rw [show (start.after sidelong).run? 0 = some r from known] at stage
  obtain ⟨ended, unstopped⟩ := Prod.mk.inj (Option.some.inj stage)
  have undisturbed : r.Undisturbed (newsFor 0 sidelong) :=
    ⟨unstopped, by simp [newsFor, sidelong, Happening.newsFor?],
      by simp [newsFor, sidelong, Happening.newsFor?]⟩
  obtain ⟨_, dispatched, _⟩ := whole undisturbed (by simp [Run.isOver, ended])
  exact ⟨met, allowed, by cbv, dispatched, by cbv⟩

end Engine
end TurnScript
