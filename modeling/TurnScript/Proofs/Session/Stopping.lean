import TurnScript.Proofs.Engine.Stopping
import TurnScript.Proofs.Session.Agenda

/-!
# Stopped runs on the agenda

A stopped run takes no pause any more: it waits for a gate inside the use of an action, or it is
ready. What is ready is taken up after finitely many steps, in which no time passes, and a stopped
run that is taken up goes straight to its end.
-/

namespace TurnScript

namespace Run

variable {r next : Run}

/-- After the outcome of a dispatch comes a pause. -/
theorem Moves.fits_pause {active : Bool} {action : Action} {outcome : Outcome}
    (moves : r.Moves active (.played action outcome) next) : next.fits .pause = true := by
  cases moves <;> rfl

end Run

namespace Engine

variable {σ : Type} {e next : Engine σ} {ref : RunRef} {r : Run}

/-- A stopped run that is not over does not hold the guard, and its pauses have been called off. -/
theorem Sound.unpaced (sound : e.Sound) (known : e.run? ref = some r) (stopped : r.stopped = true)
    (unfinished : r.isOver = false) : r.unpaced = true := by
  apply (sound.others ref r known unfinished _).2
  intro held
  obtain ⟨run, knownRun, unstopped, _⟩ := sound.owner ref held
  rw [known, Option.some.injEq] at knownRun
  subst knownRun
  rw [stopped] at unstopped
  cases unstopped

/-- A run that is over stays where it is. -/
theorem Comes.stage_of_over (comes : e.Comes next) (known : e.run? ref = some r)
    (finished : r.isOver = true) : ∃ later, next.run? ref = some later ∧ later.stage = r.stage := by
  obtain ⟨history, allowed, rfl⟩ := comes
  refine after_induction (motive := fun e => ∃ later, e.run? ref = some later ∧
    later.stage = r.stage) ⟨r, known, rfl⟩ ?_ allowed
  rintro e happening ⟨run, knownRun, same⟩ permitted
  obtain ⟨later, knownLater, befallen⟩ := befalls knownRun permitted
  refine ⟨later, knownLater, ?_⟩
  cases befallen with
  | spared | halted => exact same
  | moved moves =>
    have unfinished := moves.unfinished
    simp only [Run.isOver, same] at unfinished finished
    rw [finished] at unfinished
    cases unfinished

end Engine

namespace Session

variable {s : Session} {ref : RunRef} {r : Run} {holds : List (RunRef × Hold)}

/-- A stopped run is nearer to its end by every piece of news that it waits for. -/
theorem tell_winds {left : Nat} (news : News) (reply : Reply)
    (known : s.engine.run? ref = some r) (stopped : r.stopped = true)
    (winding : r.windings? = some left) (awaited : r.awaits news = true)
    (replied : news.reply r.ledger = reply) (noticed : ∀ mishap, news ≠ .failed mishap)
    (timed : news ≠ .overran) :
    ∃ next fewer, (s.tell ref reply).engine.run? ref = some next ∧ r.Moves false news next ∧
      next.windings? = some fewer ∧ fewer + 1 = left := by
  have idle : s.engine.isActive ref = false := by simp [Engine.isActive, known, stopped]
  have told : (s.tell ref reply).engine = s.engine.effect (.told ref news) :=
    engine_tell known replied
  have moves := Run.moves_of_awaits false awaited
  obtain ⟨fewer, winds, counted, _⟩ :=
    Run.Moves.winds (by rwa [stopped]) stopped winding noticed timed
  refine ⟨r.hear false news, fewer, ?_, moves, winds, counted⟩
  rw [told, Engine.run?_told, if_pos rfl, known, idle]
  rfl

/-- A run that is over has ended as a stopped one. -/
def EndsStopped (s : Session) (ref : RunRef) : Prop :=
  ∃ r, s.engine.run? ref = some r ∧ r.stage = .ended (.finished true)

/-- Nothing is done any more about a run that is over. -/
theorem drive_over (rank : Nat) (known : s.engine.run? ref = some r) (finished : r.isOver = true) :
    (drive ref rank s).1 = s := by
  obtain ⟨subject, found⟩ := Engine.exists_entry known
  induction rank with
  | zero => rfl
  | succ rank inductionHypothesis =>
    simp only [drive, found, answer_over finished subject]
    exact inductionHypothesis

/-- The end of a pause ends a stopped run. -/
theorem tell_paused (known : s.engine.run? ref = some r) (stopped : r.stopped = true)
    (pausing : r.fits .pause = true) :
    ∃ next, (s.tell ref .paused).engine.run? ref = some next ∧
      next.stage = .ended (.finished true) := by
  have winding : r.windings? = some 1 := by
    cases standing : r.stage <;> simp_all [Run.fits, Run.windings?]
  obtain ⟨next, fewer, knownNext, _, winds, counted⟩ :=
    tell_winds .rested .paused known stopped winding pausing rfl (by simp) (by simp)
  obtain rfl : fewer = 0 := by omega
  exact ⟨next, knownNext, Run.stage_of_wound_up winds⟩

/-- A stopped run that comes to a pause goes on to its end without one. -/
theorem follow_pausing (known : s.engine.run? ref = some r) (stopped : r.stopped = true)
    (unpaced : r.unpaced = true) (pausing : r.fits .pause = true)
    (timed : isOverlong s.host.settings.pacingDelay = false) :
    (s.follow ref).1.EndsStopped ref := by
  obtain ⟨next, knownNext, ended⟩ := tell_paused known stopped pausing
  obtain ⟨subject, found⟩ := Engine.exists_entry known
  have paused : s.pause ref = (s.tell ref .paused, none) := by
    simp [pause, timed, Session.unpaced, known, unpaced]
  have answered : s.answer ref subject r = (s.tell ref .paused, none) := by
    cases standing : r.stage <;> simp_all [Run.fits, answer]
  obtain ⟨rank, ranked⟩ : ∃ rank, r.rank = rank + 1 := by
    cases standing : r.stage <;> simp_all [Run.fits, Run.rank]
  refine ⟨next, ?_, ended⟩
  rw [follow, known, Option.map_some, Option.getD_some, ranked]
  simp only [drive, found, answered]
  rw [drive_over rank knownNext (by simp [Run.isOver, ended])]
  exact knownNext

/-- A stopped run goes to its end as soon as it is taken up. -/
theorem takeUp_ends {hold : Hold} (minds : s.engine.Minds none ((ref, hold) :: holds))
    (known : s.engine.run? ref = some r) (stopped : r.stopped = true)
    (timed : isOverlong s.host.settings.pacingDelay = false) (rested : Bool) :
    (s.takeUp ref rested hold).1.EndsStopped ref := by
  obtain ⟨run, knownRun, fits⟩ := minds.fits ref hold (List.mem_cons_self ..)
  obtain rfl := Option.some.inj (known.symm.trans knownRun)
  obtain ⟨unfinished, quiet⟩ := Run.unfinished_of_fits fits
  have unpaced : r.unpaced = true := minds.reached.sound.unpaced known stopped unfinished
  cases hold with
  | pause =>
    obtain ⟨next, knownNext, ended⟩ := tell_paused known stopped fits
    refine ⟨next, ?_, ended⟩
    simp only [takeUp, follow]
    rw [drive_over _ knownNext (by simp [Run.isOver, ended])]
    exact knownNext
  | call call =>
    obtain ⟨action, plays⟩ := Option.isSome_iff_exists.mp fits
    have paced : s.unpaced ref = true := by simp [Session.unpaced, known, unpaced]
    have spares := (s.uses_resume rested true call).spares
    obtain ⟨result, done⟩ := s.resume_unpaced rested call
    obtain ⟨_, _, middle, knownMiddle, same⟩ := spares.minds minds.take known quiet
    have like : middle.stopped = true ∧ middle.unpaced = true ∧ middle.played? = some action := by
      rcases same with rfl | rfl
      · exact ⟨stopped, unpaced, plays⟩
      · exact ⟨rfl, rfl, plays⟩
    have winding : middle.windings? = some 2 := by
      have playing := like.2.2
      cases standing : middle.stage <;> simp_all [Run.played?, Run.windings?]
    have awaited : middle.awaits (.played action (.ofUse (s.playedName ref) result)) = true := by
      simp [Run.awaits, like.2.2]
    obtain ⟨next, _, knownNext, moves, _⟩ :=
      tell_winds _ (.outcome (.ofUse (s.playedName ref) result)) knownMiddle like.1 winding awaited
        rfl (by simp) (by simp)
    have concluded : tellProgress ref (s.playedName ref) (s.resume rested true call) =
        ((s.resume rested true call).1.tell ref (.outcome (.ofUse (s.playedName ref) result)),
          none) := by
      rw [show s.resume rested true call = ((s.resume rested true call).1, .done result) by
        rw [← done]]
      rfl
    simp only [takeUp, paced, concluded]
    refine follow_pausing knownNext (moves.keeps.2.1.trans like.1) (moves.keeps.2.2.trans like.2.1)
      moves.fits_pause ?_
    rw [show ((s.resume rested true call).1.tell ref _).host = _ from spares.host]
    exact timed

/-- What ends as stopped stays ended. -/
theorem EndsStopped.goes {next : Session} (ends : s.EndsStopped ref) (goes : s.Goes next) :
    next.EndsStopped ref := by
  obtain ⟨r, known, ended⟩ := ends
  obtain ⟨later, knownLater, same⟩ :=
    goes.engine.stage_of_over known (by simp [Run.isOver, ended])
  exact ⟨later, knownLater, same.trans ended⟩

theorem session_flowOfRun (ref : RunRef) (standing : Session × Standing) :
    (flowOfRun ref standing).1 = standing.1 := by
  obtain ⟨next, standing⟩ := standing
  rcases standing with (mishap | summary) | hold
  · rfl
  · rfl
  · rfl

theorem session_flowOfErrand (combat : CombatRef) (errand : Errand)
    (standing : Session × ErrandStanding) :
    (flowOfErrand combat errand standing).1 = standing.1 := by
  obtain ⟨next, standing⟩ := standing
  rcases standing with (mishap | summary) | hold
  · rfl
  · rfl
  · rfl

theorem keeps_hearRun (ref : RunRef) (standing : Session × Standing) :
    standing.1.Keeps (hearRun ref standing).1 := by
  obtain ⟨next, standing⟩ := standing
  rcases standing with (mishap | summary) | hold
  · exact .refl next
  · exact next.keeps_emit _
  · exact .refl next

/-- A stopped run that an errand waits for ends as the errand is taken up. -/
theorem takeUpErrand_ends {combat : CombatRef} {errand : Errand} {token : TokenRef}
    {listeners : List Listener} {hold : Hold}
    (minds : s.engine.Minds none ((ref, hold) :: holds)) (known : s.engine.run? ref = some r)
    (stopped : r.stopped = true) (timed : isOverlong s.host.settings.pacingDelay = false)
    (rested : Bool) :
    (s.takeUpErrand combat errand rested (.listening token listeners ref hold)).1.EndsStopped
      ref := by
  have heard := leaves_hearRun (leaves_takeUp minds rested)
  have ends : (hearRun ref (s.takeUp ref rested hold)).1.EndsStopped ref :=
    (takeUp_ends minds known stopped timed rested).goes (keeps_hearRun ref _).goes
  simp only [takeUpErrand]
  split
  · next next taken =>
    rw [taken] at heard ends
    exact ends.goes (leaves_tellListeners heard.minds combat token listeners).goes
  · next next failure taken =>
    rw [taken] at ends
    exact ends
  · next next run hold taken =>
    rw [taken] at ends
    exact ends

/-- A stopped run ends as the activity that holds it is taken up. -/
theorem takeUpActivity_ends {activity : Activity} {hold : Hold}
    (minds : s.engine.Minds none (activity.hold?.toList ++ holds))
    (holding : activity.hold? = some (ref, hold)) (known : s.engine.run? ref = some r)
    (stopped : r.stopped = true) (timed : isOverlong s.host.settings.pacingDelay = false)
    (rested : Bool) : (s.takeUpActivity rested activity).1.EndsStopped ref := by
  rw [holding] at minds
  cases activity with
  | use => cases holding
  | run other otherHold =>
    obtain ⟨rfl, rfl⟩ := Prod.mk.inj (Option.some.inj holding)
    rw [takeUpActivity, session_flowOfRun]
    exact takeUp_ends minds known stopped timed rested
  | errand combat errand errandHold =>
    cases errandHold with
    | resting | adrift => cases holding
    | listening token listeners other otherHold =>
      obtain ⟨rfl, rfl⟩ := Prod.mk.inj (Option.some.inj holding)
      rw [takeUpActivity, session_flowOfErrand]
      exact takeUpErrand_ends minds known stopped timed rested

end Session

namespace Agenda

variable {a next : Agenda} {ref : RunRef} {hold : Hold} {r : Run}

theorem now_await (a : Agenda) (name : String) (activity : Activity) :
    (a.await name activity).now = a.now ∧
      ∃ more, (a.await name activity).ready = a.ready ++ more := by
  rcases a.await_cases name activity with ⟨entry, _, awaited⟩ | ⟨_, _, _, _, _, _, awaited⟩
  · rw [awaited]
    exact ⟨rfl, [entry], rfl⟩
  · rw [awaited]
    exact ⟨rfl, [], (List.append_nil _).symm⟩

/-- Putting in place how a call has come along takes no time, and it only adds to the row. -/
theorem ready_settleCall (a : Agenda) (name : String) (piece : Session × Flow) :
    (a.settleCall name piece).now = a.now ∧
      ∃ more, (a.settleCall name piece).ready = a.ready ++ more := by
  obtain ⟨session, flow⟩ := piece
  rcases flow with answer | activity
  · exact ⟨rfl, _, rfl⟩
  · obtain ⟨same, more, added⟩ := now_await ({ a with session } : Agenda).release name activity
    exact ⟨same, _, added.trans (List.append_assoc _ _ _)⟩

/-- Where something is ready, there is a step. -/
theorem exists_step? (ready : a.ready ≠ []) : ∃ next, a.step? = some next := by
  cases row : a.ready with
  | nil => exact absurd row ready
  | cons first rest =>
    have begun : a.beginRound.ready = a.ready := by
      unfold beginRound
      split <;> rfl
    simp only [step?, begun, row]
    split
    · exact ⟨_, rfl⟩
    · exact ⟨_, rfl⟩

/-- A step takes no time. What is not first in the row comes one place nearer. -/
theorem step?_keeps {first : Ready} {rest : List Ready} (taken : a.step? = some next)
    (row : a.ready = first :: rest) :
    next.now = a.now ∧ ∃ more, next.ready = rest ++ more := by
  obtain ⟨head, tail, alarms, ahead, rowAgain, cases⟩ := step?_cases taken
  obtain ⟨rfl, rfl⟩ := List.cons.inj (row.symm.trans rowAgain)
  rcases cases with ⟨laps, _, rfl⟩ | ⟨_, rested, rfl⟩
  · exact ⟨rfl, _, rfl⟩
  · exact ready_settleCall _ first.name _

theorem steps_succ (taken : a.step? = some next) (fuel : Nat) :
    a.steps (fuel + 1) = next.steps fuel := by
  rw [steps, taken]

theorem steps_of_idle (idle : a.step? = none) (fuel : Nat) : a.steps fuel = a := by
  cases fuel with
  | zero => rfl
  | succ fuel => rw [steps, idle]

/-- Steps after steps. -/
theorem steps_add (a : Agenda) (first second : Nat) :
    a.steps (first + second) = (a.steps first).steps second := by
  induction first generalizing a with
  | zero => rw [Nat.zero_add, steps]
  | succ first inductionHypothesis =>
    rw [Nat.add_right_comm]
    cases taken : a.step? with
    | none => rw [steps_of_idle taken, steps_of_idle taken, steps_of_idle taken]
    | some next => rw [steps_succ taken, steps_succ taken, inductionHypothesis]

/-- An agenda in order on which a run has been stopped, and on which pauses can be timed. -/
structure Winds (a : Agenda) (ref : RunRef) : Prop where
  orderly : a.Orderly none
  stopped : ∃ r, a.session.engine.run? ref = some r ∧ r.stopped = true
  timed : isOverlong a.session.host.settings.pacingDelay = false

theorem Winds.step? (winds : a.Winds ref) (taken : a.step? = some next) : next.Winds ref := by
  obtain ⟨orderly, goes⟩ := winds.orderly.step? taken
  obtain ⟨r, known, stopped⟩ := winds.stopped
  obtain ⟨later, knownLater, kept⟩ := goes.engine.keeps known
  exact ⟨orderly, ⟨later, knownLater, kept stopped⟩, goes.host ▸ winds.timed⟩

/-- A stopped run whose activity is first in the row, with no more laps to go, ends in one step. -/
theorem Winds.ends_first {first : Ready} {rest : List Ready} (winds : a.Winds ref)
    (row : a.ready = first :: rest) (holding : first.activity.hold? = some (ref, hold))
    (last : first.laps = 0) (taken : a.step? = some next) : next.session.EndsStopped ref := by
  obtain ⟨r, known, stopped⟩ := winds.stopped
  obtain ⟨head, tail, alarms, ahead, rowAgain, cases⟩ := step?_cases taken
  obtain ⟨rfl, rfl⟩ := List.cons.inj (row.symm.trans rowAgain)
  rcases cases with ⟨laps, more, _⟩ | ⟨_, rested, rfl⟩
  · rw [last] at more
    cases more
  · rw [session_settleCall]
    have minds := winds.orderly.minds
    rw [Option.toList_none, List.nil_append, holds_of_row row] at minds
    exact Session.takeUpActivity_ends minds holding known stopped winds.timed rested

/-- What is ready comes to the front of the row. The induction is on what stands before it. -/
theorem Winds.comes_first (before : List Ready) {entry : Ready} {after : List Ready}
    (winds : a.Winds ref) (row : a.ready = before ++ entry :: after) :
    ∃ n behind, (a.steps n).Winds ref ∧ (a.steps n).ready = entry :: behind ∧
      (a.steps n).now = a.now := by
  induction before generalizing a after with
  | nil => exact ⟨0, after, winds, row, rfl⟩
  | cons first before inductionHypothesis =>
    rw [List.cons_append] at row
    obtain ⟨next, taken⟩ := exists_step? (a := a) (by simp [row])
    obtain ⟨same, more, rowNext⟩ := step?_keeps taken row
    rw [List.append_assoc, List.cons_append] at rowNext
    obtain ⟨n, behind, windsThen, rowThen, time⟩ := inductionHypothesis (winds.step? taken) rowNext
    refine ⟨n + 1, behind, ?_⟩
    rw [steps_succ taken]
    exact ⟨windsThen, rowThen, time.trans same⟩

/-- A stopped run whose activity is at the front of the row ends after some steps. The induction is
on the laps that the activity has still to go. -/
theorem Winds.ends_in_front (laps : Nat) {entry : Ready} {after : List Ready}
    (winds : a.Winds ref) (row : a.ready = entry :: after)
    (holding : entry.activity.hold? = some (ref, hold)) (left : entry.laps = laps) :
    ∃ n, (a.steps n).session.EndsStopped ref ∧ (a.steps n).now = a.now := by
  obtain ⟨next, taken⟩ := exists_step? (a := a) (by simp [row])
  have same : next.now = a.now := (step?_keeps taken row).1
  induction laps generalizing a entry after next with
  | zero =>
    refine ⟨1, ?_⟩
    rw [steps_succ taken]
    exact ⟨winds.ends_first row holding left taken, same⟩
  | succ laps inductionHypothesis =>
    obtain ⟨head, tail, alarms, ahead, rowAgain, cases⟩ := step?_cases taken
    obtain ⟨rfl, rfl⟩ := List.cons.inj (row.symm.trans rowAgain)
    rcases cases with ⟨fewer, more, around⟩ | ⟨none, _⟩
    · have rowNext : next.ready = after ++ { entry with laps := fewer } :: [] := by rw [around]
      obtain ⟨n, behind, windsThen, rowThen, time⟩ := (winds.step? taken).comes_first after rowNext
      obtain ⟨later, takenThen⟩ := exists_step? (a := next.steps n) (by simp [rowThen])
      obtain ⟨m, ends, timeThen⟩ := inductionHypothesis windsThen rowThen holding
        (by simp only; omega) later takenThen (step?_keeps takenThen rowThen).1
      refine ⟨n + m + 1, ?_⟩
      rw [steps_succ taken, steps_add]
      exact ⟨ends, timeThen.trans (time.trans same)⟩
    · rw [left] at none
      cases none

/-- A stopped run whose activity is ready comes to its end after some steps, which take no time. -/
theorem Winds.ends {entry : Ready} (winds : a.Winds ref) (ready : entry ∈ a.ready)
    (holding : entry.activity.hold? = some (ref, hold)) :
    ∃ n, (a.steps n).session.EndsStopped ref ∧ (a.steps n).now = a.now := by
  obtain ⟨before, after, row⟩ := List.append_of_mem ready
  obtain ⟨n, behind, windsThen, rowThen, time⟩ := winds.comes_first before row
  obtain ⟨m, ends, timeThen⟩ := windsThen.ends_in_front entry.laps rowThen holding rfl
  refine ⟨n + m, ?_⟩
  rw [steps_add]
  exact ⟨ends, timeThen.trans time⟩

/-- A stopped run that is not over waits for nothing but a gate that is closed. -/
theorem Orderly.waits_at_gate {w : Waiting} (orderly : a.Orderly none)
    (known : a.session.engine.run? ref = some r) (stopped : r.stopped = true)
    (unfinished : r.isOver = false) (member : w ∈ a.waiting)
    (holding : w.activity.hold? = some (ref, hold)) :
    ∃ gate part cue asAttack, hold = .call (.cued part cue asAttack) ∧ w.wait = .gate gate ∧
      gate ∉ a.session.opened := by
  have unreleased := orderly.unreleased w member ref hold holding
  rcases orderly.suits w member ref hold holding with
    ⟨due, pausing⟩ | ⟨gate, part, cue, asAttack, called, gated⟩
  · have unpaced : r.unpaced = true :=
      orderly.minds.reached.sound.unpaced known stopped unfinished
    simp [pausing, released?, Session.unpaced, known, unpaced] at unreleased
  · refine ⟨gate, part, cue, asAttack, called, gated, ?_⟩
    simpa [gated, released?] using unreleased

/-- A run that is not over is held by an activity that is ready or waits. -/
theorem Orderly.held (orderly : a.Orderly none) (known : a.session.engine.run? ref = some r)
    (unfinished : r.isOver = false) :
    ∃ hold, (∃ entry ∈ a.ready, entry.activity.hold? = some (ref, hold)) ∨
      ∃ w ∈ a.waiting, w.activity.hold? = some (ref, hold) := by
  obtain ⟨⟨other, hold⟩, member, same⟩ :=
    List.mem_map.mp (orderly.minds.held ref r known unfinished)
  obtain rfl : other = ref := same
  obtain ⟨activity, listed, holding⟩ := List.mem_filterMap.mp member
  refine ⟨hold, ?_⟩
  rcases List.mem_append.mp listed with ready | waiting
  · obtain ⟨entry, member, rfl⟩ := List.mem_map.mp ready
    exact .inl ⟨entry, member, holding⟩
  · obtain ⟨w, member, rfl⟩ := List.mem_map.mp waiting
    exact .inr ⟨w, member, holding⟩

/-- A run that has ended as stopped gives a summary that says so. -/
theorem result_of_ended {s : Session} (known : s.engine.run? ref = some r)
    (ended : r.stage = .ended (.finished true)) :
    ∃ id, s.result ref = .ok (r.summary id true) := by
  obtain ⟨subject, found⟩ := Engine.exists_entry known
  exact ⟨(s.token subject).id, by simp [Session.result, found, ended]⟩

/-- A stopped run that nothing that waits holds comes to its end after some steps, which take no
time, and gives its summary. -/
theorem Orderly.ends_unless_waiting (orderly : a.Orderly none)
    (known : a.session.engine.run? ref = some r) (stopped : r.stopped = true)
    (unfinished : r.isOver = false)
    (unheld : ∀ w ∈ a.waiting, ∀ hold, w.activity.hold? ≠ some (ref, hold))
    (timed : isOverlong a.session.host.settings.pacingDelay = false) :
    ∃ n next id, (a.steps n).session.engine.run? ref = some next ∧
      next.stage = .ended (.finished true) ∧
      (a.steps n).session.result ref = .ok (next.summary id true) ∧
      (a.steps n).now = a.now := by
  obtain ⟨hold, ⟨entry, ready, holding⟩ | ⟨w, waiting, holding⟩⟩ := orderly.held known unfinished
  · have winds : a.Winds ref := ⟨orderly, ⟨r, known, stopped⟩, timed⟩
    obtain ⟨n, ⟨next, knownNext, ended⟩, time⟩ := winds.ends ready holding
    obtain ⟨id, result⟩ := result_of_ended knownNext ended
    exact ⟨n, next, id, knownNext, ended, result, time⟩
  · exact absurd holding (unheld w waiting hold)

/-- An emergency stop, at any moment at which it finds a run inside its loop: in every history from
then on the run asks no condition, begins no dispatch, skips nothing and reports nothing; the
dispatch that was under way comes to its outcome and is recorded; and the run ends as a stopped
one, with the latest outcomes of all the dispatches that it ever began.

What happens to the engine on an agenda is such a history. There a stopped run never waits for a
time, but only for a closed gate inside the use of an action. If it does not, it comes to its
end after some steps, in which no time passes, provided that the pauses of runs can be timed. -/
theorem emergency_stop :
    (∀ (before later : List (Happening TokenRef)) (ref : RunRef) (r : Run),
      ({} : Engine TokenRef).allows (before ++ .stopped :: later) = true →
      (({} : Engine TokenRef).after before).active = some ref →
      (({} : Engine TokenRef).after before).run? ref = some r → r.isInLoop = true →
      (∀ mishap, .failed mishap ∉ newsFor ref later) → .overran ∉ newsFor ref later →
      ∃ next,
        ((({} : Engine TokenRef).after before).effect .stopped).WindsUp ref r later next ∧
        Engine.Accounts ref (before ++ .stopped :: later) next ∧
        ∀ id, Ordered.get? next.ledger id =
          latest? (playsOf (newsFor ref (before ++ .stopped :: later))) id) ∧
    ∀ a : Agenda, a.Reached →
      a.session.engine.Reached ∧
      (∀ next, a.Comes next → a.session.engine.Comes next.session.engine) ∧
      ∀ ref r, a.session.engine.run? ref = some r → r.stopped = true → r.isOver = false →
        (∀ w ∈ a.waiting, ∀ hold, w.activity.hold? = some (ref, hold) →
          ∃ gate part cue asAttack, hold = .call (.cued part cue asAttack) ∧
            w.wait = .gate gate ∧ gate ∉ a.session.opened) ∧
        ((∀ w ∈ a.waiting, ∀ hold, w.activity.hold? ≠ some (ref, hold)) →
          isOverlong a.session.host.settings.pacingDelay = false →
          ∃ n next id, (a.steps n).session.engine.run? ref = some next ∧
            next.stage = .ended (.finished true) ∧
            (a.steps n).session.result ref = .ok (next.summary id true) ∧
            (a.steps n).now = a.now) := by
  constructor
  · intro before later ref r allowed held known inside noticed timed
    exact Engine.winds_up_after_stop allowed held known inside noticed timed
  · intro a reached
    have orderly : a.Orderly none := reached.orderly
    refine ⟨orderly.minds.reached, ?_, ?_⟩
    · intro next comes
      exact (orderly.comes comes).2.engine
    · intro ref r known stopped unfinished
      constructor
      · intro w member hold holding
        exact orderly.waits_at_gate known stopped unfinished member holding
      · intro unheld timed
        exact orderly.ends_unless_waiting known stopped unfinished unheld timed

/-- A pause that cannot be timed ends a run that was stopped by the host while it played an action:
it tells of a failure and has no summary. -/
theorem overlong_pause_fails_stopped :
    let host : Host := { movement := .cued, cues := [((.movement, ""), { stops := true })],
                         settings := { pacingDelay := Int.pow 10 400 } }
    let called := ({ session := { host } } : Agenda).call "run"
      (Request.run 0 [{ id := "walk" }]).begin
    (called.session.engine.run? 0).map (fun r => (r.stopped, r.stage)) =
      some (true, .ended (.raised .overlong)) ∧
    called.answers = [("run", .failed (.mishap .overlong))] := by
  decide +kernel

/-- A run that is held in the pause after an action, which has a branch. -/
def pausing : Agenda :=
  ({ session := { host := { movement := .cued } } } : Agenda).call "run"
    (Request.run 0 [{ id := "walk", onSuccess := some "walk" }]).begin

/-- A run up to the dispatch of its action. -/
def acting : List (Happening TokenRef) :=
  [.arrived 0 [{ id := "walk" }], .told 0 (.judged { id := "walk" } default .noChecker)]

/-- The rest of that run. -/
def concluding : List (Happening TokenRef) :=
  [.told 0 (.played { id := "walk" } { success := true }), .told 0 .rested]

/-- Stopped during a dispatch, the run records the outcome and ends; stopped in a pause, it ends
without its branch and without any time passing. -/
theorem emergency_stop_pausing :
    (∃ next, ((({} : Engine TokenRef).after (acting ++ [.stopped])).after concluding).run? 0 =
        some next ∧ next.stopped = true ∧
      Ordered.get? next.ledger "walk" = some { success := true }) ∧
    ∃ n next id,
      ((pausing.act fun s => s.stop.1).steps n).session.engine.run? 0 = some next ∧
      next.stage = .ended (.finished true) ∧
      ((pausing.act fun s => s.stop.1).steps n).session.result 0 = .ok (next.summary id true) ∧
      ((pausing.act fun s => s.stop.1).steps n).now = pausing.now := by
  obtain ⟨histories, agendas⟩ := emergency_stop
  constructor
  · have caught : ((({} : Engine TokenRef).after acting).run? 0).any (·.isInLoop) = true := by
      decide +kernel
    obtain ⟨r, known, inside⟩ := (Option.any_eq_true _ _).mp caught
    obtain ⟨next, windsUp, _, latest⟩ := histories acting concluding 0 r (by decide +kernel)
      (by decide +kernel) known inside (by simp [newsFor, concluding, Happening.newsFor?])
      (by decide +kernel)
    exact ⟨next, windsUp.known, windsUp.stopped, (latest "walk").trans (by decide +kernel)⟩
  · have reached : (pausing.act fun s => s.stop.1).Reached :=
      ⟨{ host := { movement := .cued } }, rfl, .tail (.tail .refl (.call "run"
        (.run 0 [{ id := "walk", onSuccess := some "walk" }]))) .stop⟩
    have halted : ((pausing.act fun s => s.stop.1).session.engine.run? 0).any
        (fun r => r.stopped && !r.isOver) = true := by decide +kernel
    obtain ⟨r, known, cut⟩ := (Option.any_eq_true _ _).mp halted
    have unfinished : r.stopped = true ∧ r.isOver = false := by simpa using cut
    obtain ⟨_, ends⟩ := (agendas _ reached).2.2 0 r known unfinished.1 unfinished.2
    have empty : (pausing.act fun s => s.stop.1).waiting = [] := by decide +kernel
    exact ends (by simp [empty]) (by decide +kernel)

end Agenda
end TurnScript
