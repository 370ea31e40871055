import TurnScript.Proofs.Engine.Visits
import TurnScript.Proofs.Store.Removal

/-!
# What an archive provides and what a run walks

An archive gives out a queue as it is stored, in execution order, and in execution order without
what is disabled. A run is given one of the first two and makes the third from it: it leaves out
what is disabled and sorts what is left, once more if it was sorted already. Leaving out and
sorting stably commute, and sorting again changes nothing, so all of these are one list.

What a run walks is seen from the actions that it takes up, be they skipped or dispatched. They
are a first part of that list at every moment, whichever way the run comes to its end.
-/

namespace TurnScript

/-! ## Three ways to one list -/

/-- Leaving out what is disabled after sorting or before comes to the same. -/
theorem filter_sortedByOrder_eq_runnable (actions : List Action) :
    (sortedByOrder actions).filter (·.enabled) = runnable actions := by
  rw [← sortedByOrder_filter, runnable]

/-- It does not matter to a run whether its script is sorted. -/
theorem runnable_sortedByOrder (actions : List Action) :
    runnable (sortedByOrder actions) = runnable actions := by
  rw [runnable, filter_sortedByOrder_eq_runnable, runnable,
    sortedByOrder_of_pairwise (pairwise_sortedByOrder _)]

namespace Archive

variable (a : Archive) (subject : String)

/-- What is given out sorted is the stored queue, sorted. -/
theorem sortedQueue_fst :
    (a.sortedQueue subject).1 = (a.queue subject).1.map sortedByOrder := rfl

/-- What is given out without what is disabled is the sorted queue without it. -/
theorem enabledQueue_fst :
    (a.enabledQueue subject).1 = (a.sortedQueue subject).1.map (·.filter (·.enabled)) := rfl

/-- The enabled queue of a subject is what is to be run of its stored queue. -/
theorem enabledQueue_eq_runnable_queue :
    (a.enabledQueue subject).1 = (a.queue subject).1.map runnable := by
  rw [enabledQueue_fst, sortedQueue_fst]
  cases (a.queue subject).1 with
  | error error => rfl
  | ok stored => exact congrArg Except.ok (filter_sortedByOrder_eq_runnable stored)

/-- The enabled queue of a subject is what is to be run of its sorted queue. -/
theorem enabledQueue_eq_runnable_sortedQueue :
    (a.enabledQueue subject).1 = (a.sortedQueue subject).1.map runnable := by
  rw [enabledQueue_eq_runnable_queue, sortedQueue_fst]
  cases (a.queue subject).1 with
  | error error => rfl
  | ok stored => exact congrArg Except.ok (runnable_sortedByOrder stored).symm

variable {a subject} {shelves : Shelves}

/-- The enabled queue of an archive that holds some shelves. -/
theorem Holds.enabledQueue (holds : a.Holds shelves) (subject : String) :
    a.enabledQueue subject = (.ok (runnable (actionsOn (shelves subject))), a) := by
  rw [Archive.enabledQueue, holds.sortedQueue]
  exact congrArg (Except.ok · , a) (filter_sortedByOrder_eq_runnable _)

end Archive

/-! ## What a run takes up -/

/-- The actions that a run has taken up, in the order of time. -/
def takenUpBy (news : List News) : List Action :=
  (visitsOf news).map (·.action)

/-- A piece of news takes up an action exactly if a condition is asked, and that of the action. -/
theorem Visit.map_action_follow (visits : List Visit) (latest : News) :
    (follow visits latest).map (·.action) = visits.map (·.action) ∨
      ∃ action token range, latest = .judged action token range ∧
        (follow visits latest).map (·.action) = visits.map (·.action) ++ [action] := by
  cases latest with
  | judged action token range =>
    exact .inr ⟨action, token, range, rfl, by simp [follow]⟩
  | played action outcome =>
    left
    rcases List.eq_nil_or_concat' visits with rfl | ⟨earlier, visit, rfl⟩
    · rfl
    · simp [follow_played, add]
  | noted | failed | rested | overran => exact .inl rfl

namespace Run

variable {r next : Run} {visits : List Visit} {latest : News}

/-- A condition is asked only of the action that stands next on the walk. -/
theorem Moves.next_of_judged {active : Bool} {action : Action} {token : Token}
    {range : RangeAnswer} (moves : r.Moves active (.judged action token range) next) :
    ∃ rest, r.stage = .asking action rest := by
  cases moves with
  | accept standing | decline standing => exact ⟨_, standing⟩

/-- What a run takes up next is what comes next among the actions that it is to walk. -/
theorem Moves.takes_up {active : Bool} (moves : r.Moves active latest next)
    (stands : Stands r.script visits r.skipped r.stage)
    (walked : visits.map (·.action) <+: runnable r.script) :
    (Visit.follow visits latest).map (·.action) <+: runnable r.script := by
  rcases Visit.map_action_follow visits latest with same | ⟨action, token, range, rfl, more⟩
  · rw [same]
    exact walked
  · obtain ⟨rest, standing⟩ := moves.next_of_judged
    rw [standing] at stands
    cases stands with
    | asking behind =>
      rw [more]
      exact ⟨rest, by simpa using behind.order⟩

end Run

namespace Engine

open Archive (axe bow finale packed queue_packed)

variable {σ : Type} {e : Engine σ} {history : List (Happening σ)}

/-- A run takes up a first part of what is to be run of its script, and all of it if it comes to
its end and was not stopped. -/
theorem takenUp_after {subject : σ} {script : List Action} (reached : e.Reached)
    (free : e.executing = false)
    (allowed : (e.effect (.arrived subject script)).allows history = true) :
    ∃ r, ((e.effect (.arrived subject script)).after history).run? e.entries.length = some r ∧
      takenUpBy (newsFor e.entries.length history) <+: runnable script ∧
      (r.stage = .ended (.finished false) →
        takenUpBy (newsFor e.entries.length history) = runnable script) := by
  have sound : (e.effect (.arrived subject script)).Sound := reached.sound.arrived subject script
  have known := run?_begun subject script free
  -- The invariant: the run is tallied, and it has taken up a first part of its walk. A run that
  -- has failed no longer says what it had left, so the second part is carried on by itself.
  obtain ⟨r, knownAfter, tallied, same, walked⟩ := sound.run_induction
    (motive := fun news r => r.Tallied news ∧ r.script = script ∧
      takenUpBy news <+: runnable script) known []
    ⟨Run.tallied_begin script, (Run.begin_untouched script).1, List.nil_prefix⟩
    (fun _ _ ⟨tallied, same, walked⟩ => ⟨⟨tallied.stands, tallied.plays⟩, same, walked⟩)
    (fun news r latest next ⟨tallied, same, walked⟩ moves => by
      subst same
      refine ⟨tallied.moves moves, moves.keeps.1, ?_⟩
      rw [takenUpBy, visitsOf_append]
      exact moves.takes_up tallied.stands walked) allowed
  refine ⟨r, knownAfter, walked, fun ended => ?_⟩
  have stands := tallied.stands
  rw [ended, same] at stands
  obtain ⟨rest, behind, whole⟩ := stands.walked
  have order := behind.order
  rwa [whole rfl, List.append_nil] at order

/-- An engine walks what the archive says that it walks. From the same rows, what is to be run of
the sorted queue, what is to be run of the stored queue, and the enabled queue are the same list,
or the same failure; and where the rows hold queues, giving out one of them changes nothing, so it
does not matter which one is asked for first. A run that was given the sorted or the stored queue
takes up the actions of the enabled queue, one after the other: a first part of them at every
moment, whatever happens, and all of them by the time it has come to its end, if it was not
stopped. -/
theorem walks_enabled_queue (a : Archive) (name : String) {subject : σ} {script : List Action}
    (given : (a.sortedQueue name).1 = .ok script ∨ (a.queue name).1 = .ok script)
    (reached : e.Reached) (free : e.executing = false)
    (allowed : (e.effect (.arrived subject script)).allows history = true) :
    (a.enabledQueue name).1 = (a.sortedQueue name).1.map runnable ∧
    (a.enabledQueue name).1 = (a.queue name).1.map runnable ∧
    (∀ shelves, a.Holds shelves → (a.enabledQueue name).2 = a ∧ (a.sortedQueue name).2 = a ∧
      (a.queue name).2 = a) ∧
    ∃ enabled, (a.enabledQueue name).1 = .ok enabled ∧
      ∃ r, ((e.effect (.arrived subject script)).after history).run? e.entries.length = some r ∧
        takenUpBy (newsFor e.entries.length history) <+: enabled ∧
        (r.stage = .ended (.finished false) →
          takenUpBy (newsFor e.entries.length history) = enabled) := by
  refine ⟨a.enabledQueue_eq_runnable_sortedQueue name, a.enabledQueue_eq_runnable_queue name, ?_,
    runnable script, ?_, takenUp_after reached free allowed⟩
  · intro shelves holds
    rw [holds.enabledQueue, holds.sortedQueue, holds.queue]
    exact ⟨rfl, rfl, rfl⟩
  · rcases given with sorted | stored
    · rw [a.enabledQueue_eq_runnable_sortedQueue, sorted]
      rfl
    · rw [a.enabledQueue_eq_runnable_queue, stored]
      rfl

/-- The hero's queue is performed to its end. -/
def parade : List (Happening String) :=
  [.told 0 (.judged axe default .noChecker), .told 0 (.played axe { success := true }),
    .told 0 .rested, .told 0 (.judged bow default .noChecker),
    .told 0 (.played bow { success := true }), .told 0 .rested,
    .told 0 (.judged finale default .noChecker), .told 0 (.played finale { success := false }),
    .told 0 .rested, .told 0 .noted]

/-- The queue that is stored as bow, axe, finale is walked as axe, bow, finale. -/
theorem walks_enabled_queue_parade :
    (packed.queue "hero").1 = .ok [bow, axe, finale] ∧
      (packed.enabledQueue "hero").1 = .ok [axe, bow, finale] ∧
      takenUpBy (newsFor 0 parade) = [axe, bow, finale] := by
  have stored : (packed.queue "hero").1 = .ok [bow, axe, finale] :=
    congrArg Prod.fst queue_packed
  have allowed : (({} : Engine String).effect (.arrived "hero" [bow, axe, finale])).allows parade =
      true := by cbv
  obtain ⟨_, _, _, enabled, provided, r, known, _, whole⟩ :=
    walks_enabled_queue (e := ({} : Engine String)) packed "hero" (.inr stored)
      ⟨[], rfl, rfl⟩ rfl allowed
  have stage : (((({} : Engine String).effect (.arrived "hero" [bow, axe, finale])).after
      parade).run? 0).map (·.stage) = some (.ended (.finished false)) := by cbv
  rw [show (((({} : Engine String).effect (.arrived "hero" [bow, axe, finale])).after
      parade).run? 0) = some r from known] at stage
  have taken := whole (Option.some.inj stage)
  have walked : takenUpBy (newsFor 0 parade) = [axe, bow, finale] := by cbv
  refine ⟨stored, ?_, walked⟩
  rw [provided, ← taken]
  exact congrArg Except.ok walked

end Engine
end TurnScript
