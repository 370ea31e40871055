import TurnScript.Ledger
import TurnScript.Play.Mishap
import TurnScript.Script.Order

/-!
# One run of a script

A run walks the enabled actions of a script in execution order. For each it asks the
condition, has the action dispatched, records the outcome, pauses, and then has at most one
branch target dispatched, without its condition and without its own branches.

A run does none of these itself. At every moment it stands at a stage that says what it
waits for, and each reply takes it to its next stage. Whether the run is still the active
one is told with the reply, so everything that happens between two stages is the caller's.
-/

namespace TurnScript

/-- What became of a run that was not cut short by an error. -/
structure Summary where
  subjectId : String
  executed : Nat
  skipped : Nat
  stopped : Bool
  results : Ledger
  deriving Repr, DecidableEq

/-- How a run ended: with a summary, or by a mishap of a notice or a pause. -/
inductive RunEnd where
  | finished (stopped : Bool)
  | raised (mishap : Mishap)
  deriving Repr, DecidableEq

/-- What a run waits for. `rest` holds the actions that it has still to walk. -/
inductive Stage where
  /-- The verdict on the condition of an action. -/
  | asking (action : Action) (rest : List Action)
  /-- The end of the notice that an action was skipped. -/
  | skipping (action : Action) (rest : List Action)
  /-- The outcome of an action. -/
  | acting (action : Action) (rest : List Action)
  /-- The end of the pause after an action. -/
  | pacing (action : Action) (outcome : Outcome) (rest : List Action)
  /-- The outcome of a branch target. -/
  | branching (target : Action) (rest : List Action)
  /-- The end of the pause after a branch target. -/
  | settling (rest : List Action)
  /-- The end of the notice that the run is complete. -/
  | reporting
  /-- The end of the notice that the run failed. -/
  | failing (mishap : Mishap)
  /-- Nothing: the run is over. -/
  | ended (how : RunEnd)
  deriving Repr, DecidableEq

/-- What a run is told. -/
inductive Reply where
  | verdict (holds : Bool)
  | noted
  | raised (mishap : Mishap)
  | outcome (outcome : Outcome)
  | paused
  deriving Repr, DecidableEq

/-- A run: the script as it was when the run began, what has been done, and where it stands. -/
structure Run where
  script : List Action
  ledger : Ledger := []
  executed : Nat := 0
  skipped : Nat := 0
  /-- Set by an emergency stop. -/
  stopped : Bool := false
  /-- Whether the run's pauses have been called off. -/
  unpaced : Bool := false
  stage : Stage
  deriving Repr, DecidableEq

namespace Run

/-- Leave the loop: a stopped run is over, any other reports first. -/
def close (r : Run) : Run :=
  { r with stage := if r.stopped then .ended (.finished true) else .reporting }

/-- Take up the next action, or leave the loop if there is none or the run is not active. -/
def walk (r : Run) (active : Bool) : List Action → Run
  | [] => r.close
  | action :: rest => if active then { r with stage := .asking action rest } else r.close

/-- A run of a script that has just begun. -/
def begin (script : List Action) : Run :=
  { script, stage := .reporting : Run }.walk true (runnable script)

/-- Record the outcome of a dispatch. -/
def record (r : Run) (action : Action) (outcome : Outcome) : Run :=
  { r with ledger := r.ledger.record action.id outcome, executed := r.executed + 1 }

/-- Go on after the pause that follows an action: to its branch target if it names one that
the script has. -/
def branch (r : Run) (active : Bool) (action : Action) (outcome : Outcome) (rest : List Action) :
    Run :=
  if !active then r.close
  else match (action.branchAfter outcome).bind (findAction? r.script) with
    | some target => { r with stage := .branching target rest }
    | none => r.walk active rest

/-- The run after a reply. A reply that the stage does not wait for changes nothing. -/
def tell (r : Run) (active : Bool) (reply : Reply) : Run :=
  match r.stage, reply with
  | .asking action rest, .verdict true => { r with stage := .acting action rest }
  | .asking action rest, .verdict false =>
    { r with skipped := r.skipped + 1, stage := .skipping action rest }
  | .skipping _ rest, .noted => r.walk active rest
  | .skipping _ _, .raised mishap => { r with stage := .failing mishap }
  | .acting action rest, .outcome outcome =>
    { r.record action outcome with stage := .pacing action outcome rest }
  | .pacing action outcome rest, .paused => r.branch active action outcome rest
  | .pacing _ _ _, .raised mishap => { r with stage := .failing mishap }
  | .branching target rest, .outcome outcome =>
    { r.record target outcome with stage := .settling rest }
  | .settling rest, .paused => if active then r.walk active rest else r.close
  | .settling _, .raised mishap => { r with stage := .failing mishap }
  | .reporting, .noted => { r with stage := .ended (.finished false) }
  | .reporting, .raised mishap => { r with stage := .failing mishap }
  | .failing mishap, .noted => { r with stage := .ended (.raised mishap) }
  | .failing _, .raised mishap => { r with stage := .ended (.raised mishap) }
  | _, _ => r

/-- The action whose outcome a run waits for. -/
def played? (r : Run) : Option Action :=
  match r.stage with
  | .acting action _ | .branching action _ => some action
  | _ => none

/-- How many replies a run can still take at a stage. Every reply that it waits for lowers
this number, so a run is over after that many replies. -/
def rank (r : Run) : Nat :=
  match r.stage with
  | .asking _ rest => 6 * rest.length + 8
  | .skipping _ rest => 6 * rest.length + 3
  | .acting _ rest => 6 * rest.length + 7
  | .pacing _ _ rest => 6 * rest.length + 6
  | .branching _ rest => 6 * rest.length + 5
  | .settling rest => 6 * rest.length + 4
  | .reporting => 2
  | .failing _ => 1
  | .ended _ => 0

/-- Whether a run is over. -/
def isOver (r : Run) : Bool :=
  match r.stage with
  | .ended _ => true
  | _ => false

/-- The summary of a run for a subject. -/
def summary (r : Run) (subjectId : String) (stopped : Bool) : Summary :=
  ⟨subjectId, r.executed, r.skipped, stopped, r.ledger⟩

/-- Closing leaves at most the report to be told. -/
theorem rank_close_le (r : Run) : r.close.rank ≤ 2 := by
  cases stopped : r.stopped <;> simp [close, rank, stopped]

/-- Taking up the next action leaves room for what it may still be told. -/
theorem rank_walk_le (r : Run) (active : Bool) (rest : List Action) :
    (r.walk active rest).rank ≤ 6 * rest.length + 2 := by
  have closed := r.rank_close_le
  cases rest with
  | nil => simpa [walk] using closed
  | cons action rest =>
    cases active with
    | false =>
      simp only [walk, Bool.false_eq_true, if_false, List.length_cons]
      omega
    | true =>
      simp only [walk, if_true, rank, List.length_cons]
      omega

/-- Going on after a pause leaves room for a branch target. -/
theorem rank_branch_le (r : Run) (active : Bool) (action : Action) (outcome : Outcome)
    (rest : List Action) :
    (r.branch active action outcome rest).rank ≤ 6 * rest.length + 5 := by
  have closed := r.rank_close_le
  have walked := r.rank_walk_le active rest
  unfold branch
  repeat' split
  · omega
  · simp [rank]
  · omega

/-- Every reply that a run waits for lowers its rank, and any other changes nothing. So a run is
over after as many replies as its rank says. -/
theorem tell_eq_self_or_rank_lt (r : Run) (active : Bool) (reply : Reply) :
    r.tell active reply = r ∨ (r.tell active reply).rank < r.rank := by
  have closed := r.rank_close_le
  unfold tell
  split
  case h_3 _ _ _ rest stage =>
    have walked := r.rank_walk_le active rest
    right
    simp only [rank, stage] at walked ⊢
    omega
  case h_6 _ _ action outcome rest stage =>
    have branched := r.rank_branch_le active action outcome rest
    right
    rw [show r.rank = 6 * rest.length + 6 by simp [rank, stage]]
    omega
  case h_9 _ _ rest stage =>
    have walked := r.rank_walk_le active rest
    right
    rw [show r.rank = 6 * rest.length + 4 by simp [rank, stage]]
    split <;> omega
  case h_15 => exact .inl rfl
  all_goals right; simp [rank, *]

end Run
end TurnScript
