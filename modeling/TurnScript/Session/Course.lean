import TurnScript.Condition.Verdict
import TurnScript.Session.Use

/-!
# The course of a run

The session answers what a run of the engine waits for: it asks conditions, dispatches
actions, and tells the host, until the run is over or has to be held, in a pause or inside
the use of an action. A run that is held is taken up later with the same reply that it was
waiting for.
-/

namespace TurnScript

/-- In what a run is held. -/
inductive Hold where
  | pause
  | call (call : Call)
  deriving Repr, DecidableEq

/-- How a run has come along: it is over, with the mishap that ended it if it failed, or it is
held. -/
inductive Standing where
  | over (result : Except Mishap Summary)
  | held (hold : Hold)

namespace Session

/-- Ask whether a target is in range of an action. -/
def askRange (s : Session) (subject : TokenRef) (action : Action) : Session × RangeAnswer :=
  let asked := s.emit (.rangeAsked (s.token subject).id (some action.id))
  match s.host.range with
  | .absent => (s, .noChecker)
  | .scene => (s, .answered (s.table.board.inRange subject (some action) s.host.reveals))
  | .always answer => (asked, .answered answer)
  | .failing => (asked, .failed)

/-- Ask the condition of an action. -/
def judge (s : Session) (subject : TokenRef) (ledger : Ledger) (action : Action) : Session × Bool :=
  let condition := action.condition
  let (s, range) := if condition.asksRange then s.askRange subject action else (s, .noChecker)
  (s, condition.verdict (s.token subject) ledger range)

/-- Tell a run of the engine something. -/
def tell (s : Session) (ref : RunRef) (reply : Reply) : Session :=
  { s with engine := s.engine.tell ref reply }

/-- Tell a run how a notice was taken. -/
def tellNoted (ref : RunRef) : Session × Option Mishap → Session
  | (s, none) => s.tell ref .noted
  | (s, some mishap) => s.tell ref (.raised mishap)

/-- Whether the pauses of a run have been called off. -/
def unpaced (s : Session) (ref : RunRef) : Bool :=
  (s.engine.run? ref).any (·.unpaced)

/-- Tell a run the outcome of a use that is done, or hold it. -/
def tellProgress (ref : RunRef) (name : String) : Session × Progress → Session × Option Hold
  | (s, .done result) => (s.tell ref (.outcome (.ofUse name result)), none)
  | (s, .held call) => (s, some (.call call))

/-- Pause between two actions, unless the pause is too long or the pauses have been called off. -/
def pause (s : Session) (ref : RunRef) : Session × Option Hold :=
  if isOverlong s.host.settings.pacingDelay then (s.tell ref (.raised .overlong), none)
  else if s.unpaced ref then (s.tell ref .paused, none)
  else (s, some .pause)

/-- Answer what a run waits for, once; a run that is over waits for nothing. -/
def answer (s : Session) (ref : RunRef) (subject : TokenRef) (run : Run) : Session × Option Hold :=
  match run.stage with
  | .asking action _ =>
    let (s, holds) := s.judge subject run.ledger action
    (s.tell ref (.verdict holds), none)
  | .skipping action _ => (tellNoted ref (s.notifySkip (s.token subject) action), none)
  | .acting action _ | .branching action _ =>
    tellProgress ref action.name (s.dispatch subject action run.unpaced)
  | .pacing .. | .settling _ => s.pause ref
  | .reporting => (tellNoted ref (s.notifySummary (s.token subject) run.executed), none)
  | .failing mishap =>
    let s := s.remark "engine" .error
      ("Error executing queue for " ++ (s.token subject).name ++ ": " ++ mishap.message)
    (tellNoted ref (s.notifyError (s.token subject) mishap.message), none)
  | .ended _ => (s, none)

/-- How a run ended. A run that the engine does not know has done nothing. -/
def result (s : Session) (ref : RunRef) : Except Mishap Summary :=
  match s.engine.entries[ref]? with
  | none => .ok ⟨"", 0, 0, true, []⟩
  | some ⟨subject, run⟩ => match run.stage with
    | .ended (.raised mishap) => .error mishap
    | .ended (.finished stopped) => .ok (run.summary (s.token subject).id stopped)
    | _ => .ok (run.summary (s.token subject).id run.stopped)

/-- Answer a run up to as many times as its rank says, until it is over or held. Every answer
lowers the rank. -/
def drive (ref : RunRef) : Nat → Session → Session × Standing
  | 0, s => (s, .over (s.result ref))
  | rank + 1, s =>
    match s.engine.entries[ref]? with
    | none => (s, .over (s.result ref))
    | some ⟨subject, run⟩ => match s.answer ref subject run with
      | (s, some hold) => (s, .held hold)
      | (s, none) => drive ref rank s

/-- Answer a run until it is over or held. -/
def follow (s : Session) (ref : RunRef) : Session × Standing :=
  drive ref (((s.engine.run? ref).map (·.rank)).getD 0) s

/-- Begin a run of a script, unless one is being executed or the engine is held for nobody. -/
def submit (s : Session) (subject : TokenRef) (script : List Action) : Option (RunRef × Session) :=
  if s.heldForNobody then none
  else (s.engine.submit subject script).map fun (ref, engine) =>
    (ref, { s with engine }.remark "engine" .info
      ("Executing " ++ toString (runnable script).length ++ " action(s) for " ++
        (s.token subject).name))

/-- The name of the action that a run plays. -/
def playedName (s : Session) (ref : RunRef) : String :=
  (((s.engine.run? ref).bind Run.played?).map Action.name).getD ""

/-- Take up a run that was held. `rested` tells whether its pause went to its end. -/
def takeUp (s : Session) (ref : RunRef) (rested : Bool) : Hold → Session × Standing
  | .pause => (s.tell ref .paused).follow ref
  | .call call => match tellProgress ref (s.playedName ref) (s.resume rested (s.unpaced ref) call) with
    | (s, some hold) => (s, .held hold)
    | (s, none) => s.follow ref

end Session
end TurnScript
