import Mathlib.Data.List.ModifyLast
import TurnScript.Proofs.Engine.Recording
import TurnScript.Proofs.Engine.SingleFlight

/-!
# The actions that a run has taken up

A run takes up the enabled actions of its script one after the other. What it does for one of them
is a visit: its condition does not hold and it is skipped, or it is dispatched and then perhaps
its branch target. The visits are read off the news of the run. A question after a condition opens
one, and every outcome belongs to the one that was opened last.

Whatever the branches look like, a visit has at most two dispatches. So the counts of a summary
are counts of visits, and the bound on the dispatches of a run is a bound on each visit.
-/

namespace TurnScript

/-- What a run has done for an action that it has taken up: the dispatches that came of it. -/
structure Visit where
  action : Action
  plays : List (Action × Outcome) := []
  deriving Repr, DecidableEq

namespace Visit

/-- Whether nothing has been dispatched. -/
def isIdle (visit : Visit) : Bool :=
  visit.plays.isEmpty

/-- A visit with one more dispatch. -/
def add (visit : Visit) (play : Action × Outcome) : Visit :=
  { visit with plays := visit.plays ++ [play] }

/-- The visits after a piece of news. -/
def follow (visits : List Visit) : News → List Visit
  | .judged action _ _ => visits ++ [{ action }]
  | .played action outcome => visits.modifyLast (·.add (action, outcome))
  | _ => visits

/-- What a visit may come to: nothing, the dispatch of its action, or this dispatch and then that
of the branch target which the outcome leads to. -/
inductive Fits (script : List Action) : Visit → Prop where
  | idle (action : Action) : Fits script ⟨action, []⟩
  | plain (action : Action) (outcome : Outcome) : Fits script ⟨action, [(action, outcome)]⟩
  | aside {action target : Action} {outcome : Outcome} (second : Outcome)
      (named : Run.target? script action outcome = some target) :
      Fits script ⟨action, [(action, outcome), (target, second)]⟩

end Visit

/-- The visits of a run that has had some news. -/
def visitsOf (news : List News) : List Visit :=
  news.foldl Visit.follow []

/-- Some visits that are over, with what is left to walk and how many actions have been skipped. -/
structure Walked (script : List Action) (visits : List Visit) (rest : List Action)
    (skipped : Nat) : Prop where
  order : visits.map (·.action) ++ rest = runnable script
  fits : ∀ visit ∈ visits, visit.Fits script
  skipped : skipped = visits.countP (·.isIdle)

/-- How the visits of a run stand at each stage. The visit of an action that is under way for the
first time is not over; all others have come to what they may come to. -/
inductive Stands (script : List Action) : List Visit → Nat → Stage → Prop where
  | asking {visits action rest skipped} (walked : Walked script visits (action :: rest) skipped) :
      Stands script visits skipped (.asking action rest)
  | skipping {visits action rest skipped} (walked : Walked script visits rest skipped) :
      Stands script visits skipped (.skipping action rest)
  | acting {visits action rest skipped} (walked : Walked script visits (action :: rest) skipped) :
      Stands script (visits ++ [⟨action, []⟩]) skipped (.acting action rest)
  | pacing {visits action outcome rest skipped}
      (walked : Walked script (visits ++ [⟨action, [(action, outcome)]⟩]) rest skipped) :
      Stands script (visits ++ [⟨action, [(action, outcome)]⟩]) skipped
        (.pacing action outcome rest)
  | branching {visits action outcome target rest skipped}
      (walked : Walked script (visits ++ [⟨action, [(action, outcome)]⟩]) rest skipped)
      (named : Run.target? script action outcome = some target) :
      Stands script (visits ++ [⟨action, [(action, outcome)]⟩]) skipped (.branching target rest)
  | settling {visits rest skipped} (walked : Walked script visits rest skipped) :
      Stands script visits skipped (.settling rest)
  | reporting {visits skipped} (walked : Walked script visits [] skipped) :
      Stands script visits skipped .reporting
  | finished {visits skipped} (walked : Walked script visits [] skipped) :
      Stands script visits skipped (.ended (.finished false))
  | stopped {visits rest skipped} (walked : Walked script visits rest skipped) :
      Stands script visits skipped (.ended (.finished true))
  | failing {visits skipped} (mishap : Mishap) : Stands script visits skipped (.failing mishap)
  | raised {visits skipped} (mishap : Mishap) :
      Stands script visits skipped (.ended (.raised mishap))

section Following

theorem visitsOf_append (news : List News) (latest : News) :
    visitsOf (news ++ [latest]) = Visit.follow (visitsOf news) latest := by
  simp [visitsOf]

/-- An outcome belongs to the latest visit. -/
theorem Visit.follow_played (visits : List Visit) (visit : Visit) (action : Action)
    (outcome : Outcome) :
    follow (visits ++ [visit]) (.played action outcome) =
      visits ++ [visit.add (action, outcome)] :=
  List.modifyLast_concat _ _ _

/-- Where there is a visit, no outcome is lost. -/
theorem Visit.flatMap_follow {visits : List Visit} {latest : News}
    (begun : latest.play?.isSome = true → visits ≠ []) :
    (follow visits latest).flatMap plays = visits.flatMap plays ++ latest.play?.toList := by
  cases latest with
  | judged => simp [follow, News.play?]
  | played action outcome =>
    obtain ⟨earlier, visit, rfl⟩ :=
      (List.eq_nil_or_concat' visits).resolve_left (begun rfl)
    simp [follow_played, add, News.play?]
  | noted | failed | rested | overran => simp [follow, News.play?]

end Following

/-! ## What a run has done for its actions at every moment -/

namespace Walked

variable {script rest : List Action} {visits : List Visit} {action target : Action}
  {outcome : Outcome} {skipped : Nat}

/-- Nothing is done before anything has been taken up. -/
theorem start (script : List Action) : Walked script [] (runnable script) 0 where
  order := rfl
  fits := by simp
  skipped := rfl

/-- The next action is taken up for a visit that is then over. -/
theorem step {visit : Visit} (walked : Walked script visits (visit.action :: rest) skipped)
    (fits : visit.Fits script) :
    Walked script (visits ++ [visit]) rest (skipped + if visit.isIdle then 1 else 0) where
  order := by
    rw [← walked.order]
    simp
  fits := by
    intro other member
    rcases List.mem_append.mp member with earlier | last
    · exact walked.fits other earlier
    · rw [List.mem_singleton.mp last]
      exact fits
  skipped := by
    rw [walked.skipped, List.countP_append, List.countP_singleton]

/-- A dispatch of the branch target that an outcome leads to belongs to the visit. -/
theorem aside (second : Outcome) (named : Run.target? script action outcome = some target)
    (walked : Walked script (visits ++ [⟨action, [(action, outcome)]⟩]) rest skipped) :
    Walked script (visits ++ [⟨action, [(action, outcome), (target, second)]⟩]) rest skipped where
  order := by
    rw [← walked.order]
    simp
  fits := by
    intro visit member
    rcases List.mem_append.mp member with earlier | last
    · exact walked.fits visit (List.mem_append_left _ earlier)
    · rw [List.mem_singleton.mp last]
      exact .aside second named
  skipped := by
    rw [walked.skipped]
    simp [List.countP_append, Visit.isIdle]

end Walked

namespace Run

variable {r next : Run} {rest : List Action} {visits : List Visit} {news : List News}
  {latest : News} {skipped : Nat}

/-- A run that walks on stands well, if what it leaves behind is over. -/
theorem stands_walk (walked : Walked r.script visits rest r.skipped) :
    Stands r.script visits r.skipped (r.walk (!r.stopped) rest).stage := by
  rcases r.walk_cases (!r.stopped) rest with ⟨action, ahead, rfl, _, on⟩ | ⟨ended, closed⟩
  · rw [on]
    exact .asking walked
  · rw [closed]
    cases stopped : r.stopped with
    | true => simpa [close, stopped] using Stands.stopped walked
    | false =>
      have through : rest = [] := by simpa [stopped] using ended
      subst through
      simpa [close, stopped] using Stands.reporting walked

/-- A run that has just begun has taken up nothing. -/
theorem stands_begin (script : List Action) :
    Stands script [] (begin script).skipped (begin script).stage := by
  have start : Walked script [] (runnable script) 0 := .start script
  rcases begin_cases script with ⟨action, ahead, listed, begun⟩ | ⟨empty, begun⟩
  · rw [listed] at start
    rw [begun]
    exact .asking start
  · rw [empty] at start
    rw [begun]
    exact .reporting start

/-- Whatever a run does on news that it waits for, its visits stand as its stage says. -/
theorem Moves.stands (moves : r.Moves (!r.stopped) latest next)
    (stands : Stands r.script visits r.skipped r.stage) :
    Stands r.script (Visit.follow visits latest) next.skipped next.stage := by
  cases moves with
  | accept standing =>
    rw [standing] at stands
    cases stands with
    | asking walked => exact .acting walked
  | decline standing =>
    rw [standing] at stands
    cases stands with
    | asking walked => exact .skipping (walked.step (.idle _))
  | passBy standing =>
    rw [standing] at stands
    cases stands with
    | skipping walked =>
      rw [walk_keeps]
      exact stands_walk walked
  | score outcome standing =>
    rw [standing] at stands
    cases stands with
    | acting walked =>
      rw [Visit.follow_played]
      exact .pacing (walked.step (.plain _ outcome))
  | turnAside standing _ named =>
    rw [standing] at stands
    cases stands with
    | pacing walked => exact .branching walked named
  | goOn standing =>
    rw [standing] at stands
    cases stands with
    | pacing walked =>
      rw [walk_keeps]
      exact stands_walk walked
  | scoreAside second standing =>
    rw [standing] at stands
    cases stands with
    | branching walked named =>
      rw [Visit.follow_played]
      exact .settling (walked.aside second named)
  | comeBack standing =>
    rw [standing] at stands
    cases stands with
    | settling walked =>
      rw [walk_keeps]
      exact stands_walk walked
  | finish standing =>
    rw [standing] at stands
    cases stands with
    | reporting walked => exact .finished walked
  | giveUp | collapse => exact .raised _
  | stumble | overrun => exact .failing _

/-- An outcome is awaited only in a visit. -/
theorem Moves.visiting (moves : r.Moves (!r.stopped) latest next)
    (stands : Stands r.script visits r.skipped r.stage) (plays : latest.play?.isSome = true) :
    visits ≠ [] := by
  cases moves with
  | score _ standing | scoreAside _ standing =>
    rw [standing] at stands
    cases stands
    simp
  | _ => simp [News.play?] at plays

/-- What a run has done for its actions, as the news that it has had tell. -/
structure Tallied (r : Run) (news : List News) : Prop where
  stands : Stands r.script (visitsOf news) r.skipped r.stage
  plays : (visitsOf news).flatMap (·.plays) = playsOf news

theorem tallied_begin (script : List Action) : (begin script).Tallied [] where
  stands := by
    rw [(begin_untouched script).1]
    exact stands_begin script
  plays := rfl

theorem Tallied.moves (tallied : r.Tallied news) (moves : r.Moves (!r.stopped) latest next) :
    next.Tallied (news ++ [latest]) where
  stands := by
    rw [visitsOf_append, moves.keeps.1]
    exact moves.stands tallied.stands
  plays := by
    rw [visitsOf_append, Visit.flatMap_follow (moves.visiting tallied.stands), tallied.plays,
      playsOf_append, playsOf_singleton]

end Run

/-! ## What the visits say about the dispatches -/

/-- What is to be run are the enabled actions of a script. -/
theorem mem_runnable {script : List Action} {action : Action} :
    action ∈ runnable script ↔ action ∈ script ∧ action.enabled = true := by
  rw [runnable, (sortedByOrder_perm _).mem_iff, List.mem_filter]

theorem length_runnable (script : List Action) :
    (runnable script).length = script.countP (·.enabled) := by
  rw [runnable, (sortedByOrder_perm _).length_eq, List.countP_eq_length_filter]

/-- A visit has at most two dispatches. -/
theorem Visit.Fits.length_le {script : List Action} {visit : Visit} (fits : visit.Fits script) :
    visit.plays.length ≤ 2 := by
  cases fits <;> simp

/-- Where some visits are all that they may be, a dispatch is that of an action that was taken up,
or it comes directly after the one whose outcome leads to it. -/
theorem Visit.leads_to {script : List Action} {visits : List Visit}
    {before after : List (Action × Outcome)} {play : Action × Outcome}
    (fits : ∀ visit ∈ visits, visit.Fits script)
    (dispatched : visits.flatMap plays = before ++ play :: after) :
    play.1 ∈ visits.map Visit.action ∨ ∃ earlier main, before = earlier ++ [main] ∧
      main.1 ∈ visits.map Visit.action ∧ Run.target? script main.1 main.2 = some play.1 := by
  induction visits generalizing before with
  | nil => simp at dispatched
  | cons visit visits inductionHypothesis =>
    obtain ⟨fitsHead, fitsRest⟩ := List.forall_mem_cons.mp fits
    -- A dispatch of a later visit, with those of the first visit put before it again.
    have later (first : List (Action × Outcome)) {between}
        (rest : visits.flatMap plays = between ++ play :: after)
        (joined : before = first ++ between) :
        play.1 ∈ (visit :: visits).map Visit.action ∨ ∃ earlier main, before = earlier ++ [main] ∧
          main.1 ∈ (visit :: visits).map Visit.action ∧
          Run.target? script main.1 main.2 = some play.1 := by
      rcases inductionHypothesis fitsRest rest with own | ⟨earlier, main, split, visited, named⟩
      · exact .inl (List.mem_cons_of_mem _ own)
      · refine .inr ⟨first ++ earlier, main, ?_, List.mem_cons_of_mem _ visited, named⟩
        rw [joined, split, List.append_assoc]
    cases fitsHead with
    | idle action => exact later [] dispatched rfl
    | plain action outcome =>
      cases before with
      | nil =>
        obtain ⟨rfl, _⟩ := List.cons.inj dispatched
        exact .inl List.mem_cons_self
      | cons head before =>
        obtain ⟨rfl, rest⟩ := List.cons.inj dispatched
        exact later [_] rest rfl
    | aside second named =>
      cases before with
      | nil =>
        obtain ⟨rfl, _⟩ := List.cons.inj dispatched
        exact .inl List.mem_cons_self
      | cons main before =>
        obtain ⟨rfl, further⟩ := List.cons.inj dispatched
        cases before with
        | nil =>
          obtain ⟨rfl, _⟩ := List.cons.inj further
          exact .inr ⟨[], _, rfl, List.mem_cons_self, named⟩
        | cons head before =>
          obtain ⟨rfl, rest⟩ := List.cons.inj further
          exact later [_, _] rest rfl

namespace Walked

variable {script rest : List Action} {visits : List Visit} {skipped : Nat}

/-- Every visit has either been skipped or begun with a dispatch of its own action. -/
theorem mains_add_skipped (walked : Walked script visits rest skipped) :
    visits.countP (!·.isIdle) + skipped = visits.length := by
  rw [walked.skipped, Nat.add_comm, List.length_eq_countP_add_countP (·.isIdle)]
  simp

theorem length_add_rest (walked : Walked script visits rest skipped) :
    visits.length + rest.length = script.countP (·.enabled) := by
  have counted := congrArg List.length walked.order
  rwa [List.length_append, List.length_map, length_runnable] at counted

theorem dispatches_le (walked : Walked script visits rest skipped) :
    (visits.flatMap (·.plays)).length ≤ 2 * visits.length := by
  have fits := walked.fits
  clear walked
  induction visits with
  | nil => simp
  | cons visit visits inductionHypothesis =>
    obtain ⟨fitsHead, fitsRest⟩ := List.forall_mem_cons.mp fits
    have few := fitsHead.length_le
    have fewRest := inductionHypothesis fitsRest
    simp only [List.flatMap_cons, List.length_append, List.length_cons]
    omega

theorem visited_enabled (walked : Walked script visits rest skipped) {action : Action}
    (visited : action ∈ visits.map (·.action)) : action.enabled = true := by
  have listed : action ∈ runnable script := by
    rw [← walked.order]
    exact List.mem_append_left _ visited
  exact (mem_runnable.mp listed).2

end Walked

/-- A run that has come to its summary has only visits that are over, of all its actions if the
summary does not say that it was stopped. -/
theorem Stands.walked {script : List Action} {visits : List Visit} {skipped : Nat}
    {stopped : Bool} (stands : Stands script visits skipped (.ended (.finished stopped))) :
    ∃ rest, Walked script visits rest skipped ∧ (stopped = false → rest = []) := by
  cases stands with
  | finished walked => exact ⟨[], walked, fun _ => rfl⟩
  | stopped walked => exact ⟨_, walked, by simp⟩

namespace Engine

variable {σ : Type} {e : Engine σ} {history : List (Happening σ)}

/-- The visits of a run are tallied after every history since its script arrived. -/
theorem tallied_after {subject : σ} {script : List Action} (reached : e.Reached)
    (free : e.executing = false)
    (allowed : (e.effect (.arrived subject script)).allows history = true) :
    ∃ r, ((e.effect (.arrived subject script)).after history).run? e.entries.length = some r ∧
      r.Tallied (newsFor e.entries.length history) := by
  have sound : (e.effect (.arrived subject script)).Sound := reached.sound.arrived subject script
  have known := run?_begun subject script free
  obtain ⟨r, knownAfter, tallied⟩ := sound.run_induction
    (motive := fun news r => r.Tallied news) known [] (Run.tallied_begin script)
    (fun _ _ tallied => ⟨tallied.stands, tallied.plays⟩)
    (fun _ _ _ _ tallied moves => tallied.moves moves) allowed
  exact ⟨r, knownAfter, tallied⟩

/-- A summary counts what the run has done, whatever the script looks like, whatever becomes of
its dispatches, and whenever the run was stopped, if it was. The run has made as many dispatches as
the summary says. The results have a place for each id that was dispatched, in the order of the
first dispatches, with the outcome of the last one.

The dispatches are those of the visits of the run, one visit after the other: it takes up a first
part of its enabled actions, or all of them unless the summary says that it was stopped, and skips
each or dispatches it and then perhaps the branch target that its outcome leads to. So a dispatch of
a disabled action comes directly after that of an enabled one that leads to it. -/
theorem summary_counts_visits {subject : σ} {script : List Action} {r : Run} {stopped : Bool}
    (reached : e.Reached) (free : e.executing = false)
    (allowed : (e.effect (.arrived subject script)).allows history = true)
    (known : ((e.effect (.arrived subject script)).after history).run? e.entries.length = some r)
    (ended : r.stage = .ended (.finished stopped)) (subjectId : String) :
    let made := begunBy e.entries.length ((e.effect (.arrived subject script)).deeds history)
    let plays := playsOf (newsFor e.entries.length history)
    let visits := visitsOf (newsFor e.entries.length history)
    let summary := r.summary subjectId stopped
    let enabled := script.countP (·.enabled)
    let mains := visits.countP (!·.isIdle)
    made = plays.map (·.1) ∧ summary.executed = made.length ∧
    Ordered.keys summary.results = (made.map (·.id)).eraseDups ∧
    (∀ id, Ordered.get? summary.results id = latest? plays id) ∧
    summary.executed ≤ 2 * enabled ∧
    mains + summary.skipped ≤ enabled ∧
    (stopped = false → mains + summary.skipped = enabled) ∧
    visits.map (·.action) <+: runnable script ∧
    visits.flatMap (·.plays) = plays ∧ (∀ visit ∈ visits, visit.Fits script) ∧
    ∀ before play after, plays = before ++ play :: after → play.1.enabled = false →
      ∃ earlier main, before = earlier ++ [main] ∧ main.1.enabled = true ∧
        Run.target? script main.1 main.2 = some play.1 := by
  intro made plays visits summary enabled mains
  obtain ⟨_, sameTallied, tallied⟩ := tallied_after reached free allowed
  obtain rfl := Option.some.inj (known.symm.trans sameTallied)
  obtain ⟨_, sameRun, scripted, ledger, executed, begun, _⟩ := arrived_after free allowed
  obtain rfl := Option.some.inj (known.symm.trans sameRun)
  have stands := tallied.stands
  rw [ended, scripted] at stands
  obtain ⟨rest, walked, whole⟩ := stands.walked
  have counted : mains + r.skipped = visits.length := walked.mains_add_skipped
  have taken : visits.length + rest.length = enabled := walked.length_add_rest
  have few : r.executed ≤ 2 * visits.length := by
    rw [executed, ← tallied.plays]
    exact walked.dispatches_le
  have concluded : made = plays.map (·.1) := by
    have idle : r.played? = none := by simp [Run.played?, ended]
    simpa [idle] using begun
  refine ⟨concluded, ?_, ?_, ?_, ?_, ?_, ?_, ⟨rest, walked.order⟩, tallied.plays, walked.fits, ?_⟩
  · rw [concluded, List.length_map]
    exact executed
  · rw [concluded, List.map_map]
    exact (congrArg Ordered.keys ledger).trans (Ledger.keys_recordAll _)
  · intro id
    exact (congrArg (Ordered.get? · id) ledger).trans (Ledger.get?_recordAll _ id)
  · change r.executed ≤ 2 * enabled
    omega
  · change mains + r.skipped ≤ enabled
    omega
  · intro unstopped
    change mains + r.skipped = enabled
    rw [whole unstopped] at taken
    exact counted.trans taken
  · intro before play after split disabled
    rcases Visit.leads_to walked.fits (tallied.plays.trans split) with
      visited | ⟨earlier, main, joined, visited, named⟩
    · rw [walked.visited_enabled visited] at disabled
      cases disabled
    · exact ⟨earlier, main, joined, walked.visited_enabled visited, named⟩

/-- An action that leads to itself, whatever becomes of it. -/
def spin : Action := { id := "spin", onSuccess := some "spin", onFailure := some "spin" }

/-- The action is dispatched, leads to itself once, and leads nowhere from there. -/
def roundabout : List (Happening String) :=
  [.told 0 (.judged spin default .noChecker), .told 0 (.played spin { success := true }),
    .told 0 .rested, .told 0 (.played spin { success := false }), .told 0 .rested, .told 0 .noted]

/-- The one enabled action makes for two dispatches and one place of the results. -/
theorem summary_counts_visits_roundabout :
    let start := ({} : Engine String).effect (.arrived "hero" [spin])
    start.allows roundabout = true ∧
    ∃ r, (start.after roundabout).run? 0 = some r ∧ r.stage = .ended (.finished false) ∧
      r.executed = 2 ∧ r.executed ≤ 2 * [spin].countP (·.enabled) ∧
      Ordered.keys (r.summary "hero" false).results = ["spin"] ∧
      Ordered.get? (r.summary "hero" false).results "spin" = some { success := false } := by
  intro start
  have allowed : start.allows roundabout = true := by cbv
  obtain ⟨r, known, _⟩ := tallied_after (e := {}) ⟨[], rfl, rfl⟩ rfl allowed
  have stage : ((start.after roundabout).run? 0).map (fun r => (r.stage, r.executed)) =
      some (.ended (.finished false), 2) := by cbv
  rw [show (start.after roundabout).run? 0 = some r from known] at stage
  obtain ⟨ended, executed⟩ := Prod.mk.inj (Option.some.inj stage)
  obtain ⟨_, _, keys, latest, few, _⟩ :=
    summary_counts_visits (e := {}) ⟨[], rfl, rfl⟩ rfl allowed known ended "hero"
  have made : begunBy 0 (start.deeds roundabout) = [spin, spin] := by cbv
  refine ⟨allowed, r, known, ended, executed, few, ?_, ?_⟩
  · rw [keys, show begunBy ({} : Engine String).entries.length _ = [spin, spin] from made]
    decide
  · rw [latest]
    cbv

end Engine
end TurnScript
