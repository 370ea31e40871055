import TurnScript.Session.Turn

/-!
# Errands of a session

The session tells the listeners of a turn one after the other. A listener that has scripts
run waits for the run of the turn's token to end; if another run is being executed nothing
is run. An error of a listener, or of its run, ends the errand and no further listener is
told.
-/

namespace TurnScript

/-- In what an errand is held. -/
inductive ErrandHold where
  | resting (ahead : List TokenRef) (rolled : Nat)
  /-- In the run of a listener; these listeners are still to be told. -/
  | listening (token : TokenRef) (listeners : List Listener) (run : RunRef) (hold : Hold)
  | adrift
  deriving Repr, DecidableEq

/-- How an errand has come along. -/
inductive ErrandStanding where
  | over (result : Except Failure ErrandEnd)
  | held (hold : ErrandHold)

/-- What became of telling one listener. -/
inductive Hearing where
  | done
  | failed (failure : Failure)
  | held (run : RunRef) (hold : Hold)

namespace Session

/-- A listener's run has come along. -/
def hearRun (ref : RunRef) : Session × Standing → Session × Hearing
  | (s, .over (.ok summary)) => (s.emit (.turnRan (some summary)), .done)
  | (s, .over (.error mishap)) => (s, .failed (.mishap mishap))
  | (s, .held hold) => (s, .held ref hold)

/-- Have the script of a turn run for a listener. -/
def hearTurn (s : Session) (token : TokenRef) : Session × Hearing :=
  match s.scriptOfTurn token true with
  | (s, .error failure) => (s, .failed failure)
  | (s, .ok none) => (s.emit (.turnRan none), .done)
  | (s, .ok (some script)) => match s.submit token script with
    | none => (s.emit (.turnRan none), .done)
    | some (run, s) => hearRun run (s.follow run)

/-- The error of a listener that refuses a turn. -/
def refusal : Failure := .mishap (.host "listener")

/-- Tell one listener of a turn. -/
def tellListener (s : Session) (round : Nat) (token : TokenRef) (listener : Listener) :
    Session × Hearing :=
  let s := s.emit (.turnBegan round (s.token token).id)
  if listener.refuses == some (s.token token).id then (s, .failed refusal)
  else if listener.runsScripts then s.hearTurn token
  else (s, .done)

/-- Tell the listeners of a turn, one after the other. -/
def tellListeners (ref : CombatRef) (token : TokenRef) :
    Session → List Listener → Session × ErrandStanding
  | s, [] => (s, .over (.ok (.turnOf (s.combat ref).current)))
  | s, listener :: listeners => match s.tellListener (s.combat ref).round token listener with
    | (s, .done) => tellListeners ref token s listeners
    | (s, .failed failure) => (s, .over (.error failure))
    | (s, .held run hold) => (s, .held (.listening token listeners run hold))

/-- Put a piece of an errand in place and go on with what it came to. -/
def attend (s : Session) (ref : CombatRef) (step : Combat.Step Combat.Stage) :
    Session × ErrandStanding :=
  let s := s.withCombat ref step.combat step.table
  match step.result with
  | .resting ahead rolled => (s, .held (.resting ahead rolled))
  | .announcing token => tellListeners ref token s step.combat.listeners
  | .ended (.raised mishap) => (s, .over (.error (.mishap mishap)))
  | .ended how => (s, .over (.ok how))
  | .adrift => (s, .held .adrift)

/-- Take up an errand that was held. `rested` tells whether a pause went to its end. -/
def takeUpErrand (s : Session) (ref : CombatRef) (errand : Errand) (rested : Bool) :
    ErrandHold → Session × ErrandStanding
  | .resting ahead rolled => s.attend ref ((s.combat ref).rested s.table errand ahead rolled)
  | .listening token listeners run hold =>
    match hearRun run (s.takeUp run rested hold) with
    | (s, .done) => tellListeners ref token s listeners
    | (s, .failed failure) => (s, .over (.error failure))
    | (s, .held run hold) => (s, .held (.listening token listeners run hold))
  | .adrift => (s, .held .adrift)

end Session
end TurnScript
