import TurnScript.Proofs.Session.Agenda

/-!
# Calling off pauses

The pauses of a run are called off when it is stopped, and once they have been called off they stay
so. On an agenda that wakes nobody but who waits for the end of such a pause. So whoever has been
woken by that finds the pauses of its run called off when it is taken up.
-/

namespace TurnScript

/-- Pauses that have been called off stay so. -/
theorem Engine.Comes.unpaced {σ : Type} {e next : Engine σ} {ref : RunRef} {r : Run}
    (comes : e.Comes next) (known : e.run? ref = some r) (calledOff : r.unpaced = true) :
    ∃ later, next.run? ref = some later ∧ later.unpaced = true := by
  obtain ⟨history, allowed, rfl⟩ := comes
  refine after_induction (motive := fun e => ∃ later, e.run? ref = some later ∧
    later.unpaced = true) ⟨r, known, calledOff⟩ ?_ allowed
  rintro e happening ⟨run, knownRun, before⟩ permitted
  obtain ⟨later, knownLater, befallen⟩ := befalls knownRun permitted
  refine ⟨later, knownLater, ?_⟩
  cases befallen with
  | spared => exact before
  | halted => rfl
  | moved moves => exact moves.keeps.2.2.trans before

namespace Session

variable {s next : Session} {run : Option RunRef}

theorem Goes.unpaced (goes : s.Goes next) (calledOff : run.any s.unpaced = true) :
    run.any next.unpaced = true := by
  cases run with
  | none => cases calledOff
  | some ref =>
    have found : (s.engine.run? ref).any (·.unpaced) = true := calledOff
    obtain ⟨r, known, before⟩ := (Option.any_eq_true _ _).mp found
    obtain ⟨later, knownLater, after⟩ := goes.engine.unpaced known before
    have kept : (next.engine.run? ref).any (·.unpaced) = true :=
      (Option.any_eq_true _ _).mpr ⟨later, knownLater, after⟩
    exact kept

/-- Whoever waits for the end of a pause of a run takes the pauses of that run. -/
theorem runOf_of_pause {now due : Int} {ref : RunRef} {activity : Activity}
    (pauses : s.waitOf now activity = .pause due (some ref)) : runOf activity = some ref := by
  have delayed : ∀ {delay : Int} {run : Option RunRef},
      waitFor now delay (.pause · run) = .pause due (some ref) → run = some ref := by
    intro delay run waits
    unfold waitFor at waits
    split at waits
    · cases waits
    · exact (Wait.pause.inj waits).2
  have called : ∀ {run : Option RunRef} {call : Call},
      s.waitOfCall now run call = .pause due (some ref) → run = some ref := by
    intro run call waits
    cases call with
    | walk => exact delayed waits
    | cued => cases waits
  have held : ∀ {run : RunRef} {hold : Hold},
      s.waitOfRun now run hold = .pause due (some ref) → some run = some ref := by
    intro run hold waits
    cases hold with
    | pause => exact delayed waits
    | call call => exact called waits
  cases activity with
  | use call dispatched => cases called pauses
  | run other hold => exact held pauses
  | errand combat errand hold =>
    cases hold with
    | resting ahead batch =>
      simp only [waitOf, waitFor] at pauses
      split at pauses <;> cases pauses
    | listening token listeners other hold => exact held pauses
    | adrift => cases pauses

end Session

namespace Agenda

variable {a next : Agenda}

/-- Whoever waits for the end of a pause of a run takes the pauses of that run, and whoever has been
woken because pauses were called off finds them called off. -/
structure Alert (a : Agenda) : Prop where
  waits : ∀ w ∈ a.waiting, ∀ due ref, w.wait = .pause due (some ref) →
    Session.runOf w.activity = some ref
  wakes : ∀ entry ∈ a.ready, entry.waking = .calledOff →
    (Session.runOf entry.activity).any a.session.unpaced = true

/-- What happens to the engine calls no pause on again. -/
theorem Alert.goes {session : Session} (alert : a.Alert) (goes : a.session.Goes session) :
    ({ a with session } : Agenda).Alert :=
  ⟨alert.waits, fun entry ready woken => goes.unpaced (alert.wakes entry ready woken)⟩

/-- Only pauses that are called off are released by that. -/
theorem Alert.release (alert : a.Alert) : a.release.Alert := by
  constructor
  · intro w member
    exact alert.waits w (List.mem_filter.mp member).1
  · intro entry member woken
    rcases List.mem_append.mp member with before | released
    · exact alert.wakes entry before woken
    · obtain ⟨w, waited, made⟩ := List.mem_filterMap.mp released
      obtain ⟨⟨laps, waking⟩, freed, rfl⟩ := Option.map_eq_some_iff.mp made
      obtain rfl : waking = .calledOff := woken
      cases wait : w.wait with
      | pause due run =>
        cases run with
        | none => simp [released?, wait] at freed
        | some ref =>
          have calledOff : a.session.unpaced ref = true := by
            simp only [released?, wait, Option.ite_none_right_eq_some] at freed
            exact freed.1
          rw [alert.waits w waited due ref wait]
          exact calledOff
      | gate name => simp [released?, wait] at freed
      | time | turn | never => simp [released?, wait] at freed

/-- An alarm calls off nothing. -/
theorem Alert.ring (alert : a.Alert) (alarm : Alarm) : (a.ring alarm).Alert := by
  constructor
  · intro w member
    exact alert.waits w (List.mem_filter.mp member).1
  · intro entry member woken
    rcases List.mem_append.mp member with before | rung
    · exact alert.wakes entry before woken
    · obtain ⟨w, _, rfl⟩ := List.mem_map.mp rung
      cases woken

theorem Alert.foldl_ring (alert : a.Alert) (due : List Alarm) : (due.foldl Agenda.ring a).Alert := by
  induction due generalizing a with
  | nil => exact alert
  | cons alarm due inductionHypothesis => exact inductionHypothesis (alert.ring alarm)

theorem Alert.await (alert : a.Alert) (name : String) (activity : Activity) :
    (a.await name activity).Alert := by
  have waits : ∀ w : Waiting, w.activity = activity → w.wait = a.session.waitOf a.now activity →
      ∀ v ∈ a.waiting ++ [w], ∀ due ref, v.wait = .pause due (some ref) →
        Session.runOf v.activity = some ref := by
    intro w same wait v member due ref pauses
    rcases List.mem_append.mp member with before | last
    · exact alert.waits v before due ref pauses
    · obtain rfl := List.mem_singleton.mp last
      rw [same]
      exact Session.runOf_of_pause (wait.symm.trans pauses)
  unfold Agenda.await
  split
  · refine ⟨alert.waits, ?_⟩
    intro entry member woken
    rcases List.mem_append.mp member with before | last
    · exact alert.wakes entry before woken
    · obtain rfl := List.mem_singleton.mp last
      cases woken
  · split
    · exact ⟨waits _ rfl rfl, alert.wakes⟩
    · exact ⟨waits _ rfl rfl, alert.wakes⟩

/-- Putting in place how a call has come along. -/
theorem Alert.settleCall {piece : Session × Flow} (alert : a.Alert)
    (goes : a.session.Goes piece.1) (name : String) : (a.settleCall name piece).Alert := by
  obtain ⟨session, flow⟩ := piece
  have released := (alert.goes goes).release
  rcases flow with answer | activity
  · exact ⟨released.waits, released.wakes⟩
  · exact released.await name activity

theorem Alert.step? (alert : a.Alert) (taken : a.step? = some next)
    (goes : a.session.Goes next.session) : next.Alert := by
  obtain ⟨first, rest, alarms, ahead, row, cases⟩ := step?_cases taken
  have left : ∀ entry ∈ rest, entry ∈ a.ready := by
    intro entry member
    rw [row]
    exact List.mem_cons_of_mem first member
  rcases cases with ⟨laps, _, rfl⟩ | ⟨_, rested, rfl⟩
  · refine ⟨alert.waits, ?_⟩
    intro entry member woken
    rcases List.mem_append.mp member with before | last
    · exact alert.wakes entry (left entry before) woken
    · obtain rfl := List.mem_singleton.mp last
      exact alert.wakes first (row ▸ List.mem_cons_self) woken
  · have popped : ({ a with ready := rest, alarms := alarms, ahead := ahead } : Agenda).Alert :=
      ⟨alert.waits, fun entry member => alert.wakes entry (left entry member)⟩
    rw [session_settleCall] at goes
    exact popped.settleCall goes first.name

/-- Whatever happens on an agenda, whoever is woken by the end of its pauses is woken rightly. -/
theorem Alert.changes (alert : a.Alert) (changes : a.Changes next)
    (goes : a.session.Goes next.session) : next.Alert := by
  cases changes with
  | call name request =>
    have tidied : ({ a.tidy with calls := a.calls ++ [name] } : Agenda).Alert :=
      ⟨alert.waits, alert.wakes⟩
    rw [call, session_settleCall] at goes
    exact tidied.settleCall goes name
  | act change keeps => exact (alert.goes goes).release
  | stop => exact (alert.goes goes).release
  | step taken => exact alert.step? taken goes
  | passTo moment =>
    have ticked : ({ a.setClock moment with
        alarms := (a.alarms.takeDue moment a.alarms.length).2 } : Agenda).Alert :=
      ⟨alert.waits, alert.wakes⟩
    exact ticked.foldl_ring (a.alarms.takeDue moment a.alarms.length).1
  | setClock moment => exact ⟨alert.waits, alert.wakes⟩
  | clear => exact ⟨alert.waits, alert.wakes⟩

/-- Whoever has been woken because pauses were called off finds the pauses of its run called off. -/
theorem Reached.alert (reached : a.Reached) : a.Alert := by
  obtain ⟨session, fresh, comes⟩ := reached
  induction comes with
  | refl => exact ⟨by simp, by simp⟩
  | tail before changes inductionHypothesis =>
    have orderly := Reached.orderly ⟨session, fresh, before⟩
    exact inductionHypothesis.changes changes (orderly.changes changes).2

end Agenda
end TurnScript
