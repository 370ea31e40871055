import TurnScript.Session.Encounter

/-!
# Activities

An activity is a call of the session that is held: the use of an action, a run, or an errand
of a combat. Each begins, is perhaps taken up a few times, and ends with an answer.
-/

namespace TurnScript

/-- A call that is held. -/
inductive Activity where
  /-- A use of its own. That of a dispatched action, which goes by its name, answers with an
  outcome whatever goes wrong. -/
  | use (call : Call) (dispatched : Option String)
  | run (ref : RunRef) (hold : Hold)
  | errand (combat : CombatRef) (errand : Errand) (hold : ErrandHold)
  deriving Repr, DecidableEq

/-- What a call answers. -/
inductive Answer where
  | outcome (outcome : Outcome)
  /-- Nothing ran, or a run came to its end. -/
  | summary (summary : Option Summary)
  | errand (how : ErrandEnd) (view : Combat.View)
  | failed (failure : Failure)
  deriving Repr, DecidableEq

/-- How a call has come along. -/
inductive Flow where
  | over (answer : Answer)
  | held (activity : Activity)

namespace Session

/-- A use has come along. -/
def flowOfUse (dispatched : Option String) : Session × Progress → Session × Flow
  | (s, .held call) => (s, .held (.use call dispatched))
  | (s, .done result) => match dispatched, result with
    | some name, result => (s, .over (.outcome (.ofUse name result)))
    | none, .ok outcome => (s, .over (.outcome outcome))
    | none, .error mishap => (s, .over (.failed (.mishap mishap)))

/-- A run has come along. -/
def flowOfRun (ref : RunRef) : Session × Standing → Session × Flow
  | (s, .over (.ok summary)) => (s, .over (.summary (some summary)))
  | (s, .over (.error mishap)) => (s, .over (.failed (.mishap mishap)))
  | (s, .held hold) => (s, .held (.run ref hold))

/-- An errand has come along. -/
def flowOfErrand (ref : CombatRef) (errand : Errand) : Session × ErrandStanding → Session × Flow
  | (s, .over (.ok how)) => (s, .over (.errand how ((s.combat ref).view s.table)))
  | (s, .over (.error failure)) => (s, .over (.failed failure))
  | (s, .held hold) => (s, .held (.errand ref errand hold))

/-- Dispatch an action by itself; its pauses are its own. -/
def dispatchAlone (s : Session) (subject : TokenRef) (action : Action) : Session × Flow :=
  flowOfUse (some action.name) (s.dispatch subject action false)

/-- Play data by the standard rules, and fail if that fails. -/
def playAlone {π : Type} (s : Session) (payload : Record.Checked π)
    (play : π → Session × Progress) : Session × Flow :=
  flowOfUse none (match payload with
    | .ok payload => play payload
    | .refused faults => (s, .done (.error (.invalid faults))))

/-- Move by itself, without pauses. -/
def moveAlone (s : Session) (subject : TokenRef) (payload : Json) : Session × Flow :=
  s.playAlone (MovementPayload.read payload) (s.playMovementAtOnce subject)

/-- Attack by itself. -/
def attackAlone (s : Session) (subject : TokenRef) (payload : Json) : Session × Flow :=
  s.playAlone (AttackPayload.read payload) (s.playAttack subject)

/-- Use an item by itself. -/
def useAlone (s : Session) (subject : TokenRef) (payload : Json) : Session × Flow :=
  s.playAlone (ItemPayload.read payload) (s.playItem subject)

/-- Run a script. -/
def run (s : Session) (subject : TokenRef) (script : List Action) : Session × Flow :=
  match s.submit subject script with
  | none => (s, .over (.summary none))
  | some (ref, s) => flowOfRun ref (s.follow ref)

/-- Run the script of a turn. -/
def turn (s : Session) (subject : TokenRef) (isNew : Bool) : Session × Flow :=
  match s.scriptOfTurn subject isNew with
  | (s, .error failure) => (s, .over (.failed failure))
  | (s, .ok none) => (s, .over (.summary none))
  | (s, .ok (some script)) => s.run subject script

/-- Roll initiative in a combat. -/
def rollInitiative (s : Session) (ref : CombatRef) : Session × Flow :=
  flowOfErrand ref .roll (s.attend ref ((s.combat ref).roll s.table))

/-- Start a combat. -/
def startCombat (s : Session) (ref : CombatRef) : Session × Flow :=
  flowOfErrand ref .start (s.attend ref ((s.combat ref).start s.table))

/-- Go on to the next turn of a combat. -/
def nextTurn (s : Session) (ref : CombatRef) : Session × Flow :=
  let (errand, step) := (s.combat ref).next s.table
  flowOfErrand ref errand (s.attend ref step)

/-- Let a token join a combat. -/
def joinCombat (s : Session) (ref : CombatRef) (token : TokenRef) : Session × Flow :=
  flowOfErrand ref .join (s.attend ref ((s.combat ref).join s.table token))

/-- Take up an activity. `rested` tells whether a pause went to its end. -/
def takeUpActivity (s : Session) (rested : Bool) : Activity → Session × Flow
  | .use call dispatched => flowOfUse dispatched (s.resume rested false call)
  | .run ref hold => flowOfRun ref (s.takeUp ref rested hold)
  | .errand ref errand hold => flowOfErrand ref errand (s.takeUpErrand ref errand rested hold)

end Session
end TurnScript
