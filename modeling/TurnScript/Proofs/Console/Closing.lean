import TurnScript.Proofs.Console.Background
import TurnScript.Proofs.Session.Performance
import TurnScript.Proofs.Session.Stopping

/-!
# Closing a console

A console that closes stops the engine and gives up what is in the background. Only runs whose
pauses have been called off are left then. They are told what they still wait for, but no run
begins, so the engine is free and stays so.
-/

namespace TurnScript

/-! ## Engines that are free -/

/-- An engine that executes nothing and holds no active run. -/
structure Engine.IsFree {σ : Type} (e : Engine σ) : Prop where
  executing : e.executing = false
  active : e.active = none

namespace Engine

variable {σ : Type} {e : Engine σ}

theorem isFree_stop (e : Engine σ) : e.stop.IsFree := ⟨rfl, rfl⟩

theorem IsFree.release (free : e.IsFree) (ref : RunRef) : (e.release ref).IsFree := by
  unfold Engine.release
  split
  · exact ⟨rfl, rfl⟩
  · exact free

/-- What a run is told leaves a free engine free. -/
theorem IsFree.tell (free : e.IsFree) (ref : RunRef) (reply : Reply) : (e.tell ref reply).IsFree :=
  have changed : (e.change ref (·.tell (e.isActive ref) reply)).IsFree :=
    ⟨free.executing, free.active⟩
  changed.release ref

end Engine

namespace Session

variable {s next : Session} {ref : RunRef}

theorem Spares.isFree (spares : s.Spares next) (free : s.engine.IsFree) : next.engine.IsFree := by
  rcases spares.engine with same | stopped
  · rwa [same]
  · rw [stopped]
    exact s.engine.isFree_stop

theorem isFree_deliver {answer : Session × Response} (free : answer.1.engine.IsFree) :
    (deliver ref answer).1.engine.IsFree := by
  obtain ⟨next, reply | hold | _⟩ := answer
  · exact free.tell ref reply
  · exact free
  · exact free

theorem isFree_drive (rank : Nat) (free : s.engine.IsFree) :
    (drive ref rank s).1.engine.IsFree := by
  induction rank generalizing s with
  | zero => exact free
  | succ rank inductionHypothesis =>
    unfold drive
    split
    · exact free
    · next subject run _ =>
      have answered : (s.answer ref subject run).1.engine.IsFree := by
        rw [answer_eq]
        exact isFree_deliver ((s.spares_respond ref subject run).isFree free)
      split
      · next found =>
        rw [found] at answered
        exact answered
      · next found =>
        rw [found] at answered
        exact inductionHypothesis answered

/-- Taking up a run leaves a free engine free. -/
theorem isFree_takeUp (free : s.engine.IsFree) (rested : Bool) (hold : Hold) :
    (s.takeUp ref rested hold).1.engine.IsFree := by
  have told : (deliver ref (s.respondHeld ref rested hold)).1.engine.IsFree :=
    isFree_deliver ((s.spares_respondHeld ref rested hold).isFree free)
  rw [takeUp_eq]
  split
  · next found =>
    rw [found] at told
    exact told
  · next found =>
    rw [found] at told
    exact isFree_drive _ told

end Session

/-- What is given up is no longer held, and nothing else is. -/
theorem Agenda.Every.giveUp {P : String → Activity → Prop} {a : Agenda} (every : a.Every P) :
    a.giveUp.Every P :=
  ⟨fun r member => every.ready r (List.mem_filter.mp member).1, fun _ none => by cases none⟩

namespace Console

variable {c next : Console} {s : Session}

/-! ## Runs that are left -/

/-- A piece of a call that leaves the engine free, and the call, if it is held, in a run. -/
structure Ebbs (piece : Session × Flow) : Prop where
  free : piece.1.engine.IsFree
  runs : ∀ activity, piece.2 = .held activity → (Session.runOf activity).isSome = true

/-- A call that is held in a run has nothing else to do once the run is over. -/
theorem ebbs_takeUp {call : Call} {activity : Activity} (pending : IsPending call activity)
    (runs : (Session.runOf activity).isSome = true) (free : s.engine.IsFree) (rested : Bool) :
    Ebbs (s.takeUpActivity rested activity) := by
  cases pending with
  | resting | adrift | rolling => cases runs
  | run ref hold =>
    have taken : (s.takeUp ref rested hold).1.engine.IsFree :=
      Session.isFree_takeUp free rested hold
    rw [Session.takeUpActivity]
    generalize s.takeUp ref rested hold = standing at taken
    obtain ⟨next, (mishap | summary) | again⟩ := standing
    · exact ⟨taken, fun _ held => by cases held⟩
    · exact ⟨taken, fun _ held => by cases held⟩
    · exact ⟨taken, fun _ held => by cases held; rfl⟩
  | listening errand token ref hold =>
    have heard := (Session.keeps_hearRun ref (s.takeUp ref rested hold)).spares.isFree
      (Session.isFree_takeUp free rested hold)
    rw [Session.takeUpActivity, Session.takeUpErrand]
    generalize Session.hearRun ref (s.takeUp ref rested hold) = hearing at heard
    obtain ⟨next, _ | failure | ⟨run, again⟩⟩ := hearing
    · exact ⟨heard, fun _ held => by cases held⟩
    · exact ⟨heard, fun _ held => by cases held⟩
    · exact ⟨heard, fun _ held => by cases held; rfl⟩

/-- A console whose engine is free, and in whose background there are only runs. -/
structure IsEbbing (c : Console) : Prop where
  free : c.session.engine.IsFree
  runs : c.agenda.Every fun _ activity => (Session.runOf activity).isSome = true

theorem isEbbing_look {a : Agenda} (free : a.session.engine.IsFree)
    (runs : a.Every fun _ activity => (Session.runOf activity).isSome = true) :
    IsEbbing { c with agenda := a }.look := by
  have seen := (meets_look { c with agenda := a }).agenda
  constructor
  · rw [Console.session, seen]
    exact free
  · rw [seen]
    exact ⟨runs.ready, runs.waiting⟩

/-- Nothing begins in what goes on where only runs are left. -/
theorem IsEbbing.idles (ebbing : c.IsEbbing) (background : IsBackground c.agenda)
    (idles : c.Idles next) : next.IsEbbing := by
  cases idles with
  | passTo moment =>
    refine isEbbing_look ?_ (ebbing.runs.passTo moment)
    rw [Agenda.session_passTo]
    exact ebbing.free
  | setClock moment => exact isEbbing_look ebbing.free ⟨ebbing.runs.ready, ebbing.runs.waiting⟩
  | @step agenda taken =>
    obtain ⟨first, rest, alarms, ahead, row, cases⟩ := Agenda.step?_cases taken
    have isFirst : first ∈ c.agenda.ready := row ▸ List.mem_cons_self
    rcases cases with ⟨laps, _, rfl⟩ | ⟨_, rested, rfl⟩
    · exact isEbbing_look ebbing.free (ebbing.runs.around row laps alarms ahead)
    · obtain ⟨call, name, pending⟩ := background.entries.ready first isFirst
      have ebbs := ebbs_takeUp pending (ebbing.runs.ready first isFirst) ebbing.free rested
      refine isEbbing_look ?_ ((ebbing.runs.others row alarms ahead).settleCall ebbs.runs)
      rw [Agenda.session_settleCall]
      exact ebbs.free

theorem IsEbbing.chain (ebbing : c.IsEbbing) (background : IsBackground c.agenda)
    (chain : Relation.ReflTransGen Idles c next) : next.IsEbbing := by
  induction chain with
  | refl => exact ebbing
  | tail chain idles inductionHypothesis =>
    exact inductionHypothesis.idles (goesOn_of_chain background chain).background idles

/-! ## Closing -/

/-- A console that has closed: nothing is left of what it had under way, but its queues and files
are. -/
structure Closes (c next : Console) : Prop where
  mood : next.mood = .closed
  free : next.session.engine.IsFree
  rows : next.session.archive.rows = c.session.archive.rows
  files : next.files = c.files

/-- Giving up leaves only runs. -/
theorem every_giveUp (a : Agenda) :
    a.giveUp.Every fun _ activity => (Session.runOf activity).isSome = true := by
  refine ⟨fun r member => ?_, fun w none => by cases none⟩
  have spared := (List.mem_filter.mp member).2
  rw [Bool.and_eq_true] at spared
  exact spared.2

/-- Stopping the engine goes well where it is not held for nobody, and frees it. -/
theorem stop_eq (free : c.session.heldForNobody = false) :
    c.stop = c.act (·.act fun _ => c.session.stop.1) ∧ c.session.stop.1.engine.IsFree := by
  have stopped : c.session.stop.2 = none ∧ c.session.stop.1.engine.IsFree := by
    simp only [Session.stop, free, Bool.false_eq_true, if_false]
    split <;> exact ⟨rfl, Engine.isFree_stop _⟩
  refine ⟨?_, stopped.2⟩
  unfold Console.stop
  split
  · next found => rw [found]
  · next found =>
    rw [found] at stopped
    cases stopped.1

theorem stepsOn_stop (background : IsBackground c.agenda) :
    c.StepsOn (c.agenda.isHeld · = true) (fun _ => False) c.stop := by
  rw [(stop_eq background.free).1]
  exact stepsOn_act background c.session.quiet_stop.upholds

theorem isFree_stop (free : c.session.heldForNobody = false) : c.stop.session.engine.IsFree := by
  obtain ⟨same, stopped⟩ := stop_eq free
  have seen := (meets_look { c with agenda := c.agenda.act fun _ => c.session.stop.1 }).agenda
  rw [same, Console.act, Console.session, seen]
  exact stopped

/-- Closing ends with the engine free, whatever was under way. -/
theorem closes_close (background : IsBackground c.agenda) : c.Closes c.close := by
  have stopped := stepsOn_stop background
  have free := isFree_stop background.free
  generalize same : c.stop = halted at stopped free
  have stayed := stopped.background
  have givenUp : (halted.line "Goodbye!").StepsOn
      ((halted.line "Goodbye!").agenda.isHeld · = true) (fun _ => False)
      ((halted.line "Goodbye!").act (·.giveUp)) :=
    stepsOn_of_same stayed (.refl _) rfl fun P every => every.giveUp
  have ebbing : IsEbbing ((halted.line "Goodbye!").act (·.giveUp)) :=
    isEbbing_look free (every_giveUp halted.agenda)
  have chain := chain_await ((halted.line "Goodbye!").act (·.giveUp)) (some 0)
  have goesOn := goesOn_of_chain givenUp.background chain
  have ended := ebbing.chain givenUp.background chain
  rw [Console.close, same]
  exact ⟨rfl, ended.free,
    goesOn.upholds.rows.trans (givenUp.upholds.rows.trans stopped.upholds.rows),
    goesOn.files.trans (givenUp.files.trans stopped.files)⟩

end Console
end TurnScript
