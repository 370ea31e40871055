import TurnScript.Play.ItemUse
import TurnScript.Play.Movement
import TurnScript.Script.Record
import TurnScript.Session.Basic

/-!
# Playing an action

An action goes to whoever plays its kind. The standard rules resolve attacks and items at
once; a walked route pauses after every square, and the host may wait for a gate, so a use
can be held and taken up later. A dispatched action never fails otherwise than by its
outcome: data that cannot be read and whatever goes wrong become failed outcomes.
-/

namespace TurnScript

/-- A use that is held: a walk after a square, or a part that waits for its gate. -/
inductive Call where
  | walk (mover : TokenRef) (here : Position) (ahead : List Position) (goal : Position)
  | cued (part : Part) (cue : Cue) (asAttack : Bool)
  deriving Repr, DecidableEq

/-- How far a use has come. -/
inductive Progress where
  | done (result : Played)
  | held (call : Call)

/-- The outcome of an action with data that cannot be read. -/
def Outcome.unreadable (name : String) (faults : List Record.Fault) : Outcome :=
  .failure .invalidPayload
    ("Invalid data on " ++ name ++ ": " ++ toString faults.length ++ " error(s)")

/-- The outcome of the action that goes by a name, whatever went wrong with its use. -/
def Outcome.ofUse (name : String) : Played → Outcome
  | .ok outcome => outcome
  | .error (.invalid faults) => .unreadable name faults
  | .error mishap => .failure .executionError mishap.message

/-- The outcome of an action that no one plays. -/
def Outcome.unavailable (part : Part) : Outcome :=
  .failure .executorUnavailable ("No " ++ part.name ++ " executor available")

/-- A successful use of an item that counts as an attack. -/
def Outcome.asAttack (outcome : Outcome) : Outcome :=
  if outcome.success then { outcome with kind := .attack } else outcome

namespace Session

/-- Ask for the state of the engine as far as a cue is to. -/
def askStatus (s : Session) (cue : Cue) : Session × Option Mishap :=
  if cue.asksStatus then
    match s.status with
    | .ok status => (s.emit (.status status), none)
    | .error mishap => (s, some mishap)
  else (s, none)

/-- The outcome that a cue answers with. -/
def outcomeOf (part : Part) (cue : Cue) (asAttack : Bool) : Played :=
  match cue.fails, cue.outcome.getD (.ok part.usualOutcome) with
  | some text, _ => .error (.host text)
  | none, .refused faults => .error (.invalid faults)
  | none, .ok outcome => .ok (if asAttack then outcome.asAttack else outcome)

/-- Play a part by its cue, once its gate is open. -/
def perform (s : Session) (part : Part) (cue : Cue) (asAttack : Bool) : Session × Played :=
  match (if cue.stops then s.stop else (s, none)) with
  | (s, some mishap) => (s, .error mishap)
  | (s, none) => match s.askStatus cue with
    | (s, some mishap) => (s, .error mishap)
    | (s, none) => (s, outcomeOf part cue asAttack)

/-- Play a part by its cue, or wait for the gate. -/
def playCue (s : Session) (part : Part) (key : Option String) (asAttack : Bool) :
    Session × Progress :=
  let cue := s.host.cue part key
  if cue.gate.all s.opened.contains then
    let (s, result) := s.perform part cue asAttack
    (s, .done result)
  else (s, .held (.cued part cue asAttack))

/-- The host plays a part. -/
def playPart (s : Session) (part : Part) (subject : TokenRef) (key : Option String) :
    Session × Progress :=
  (s.emit (.played part (s.token subject).id key)).playCue part key false

/-- The host's workflow resolves an item. -/
def playWorkflow (s : Session) (subject : TokenRef) (item : Item) (targets : List TokenRef)
    (consume asAttack : Bool) : Session × Progress :=
  (s.emit (.workflow (s.token subject).id item.id (targets.map fun ref => (s.token ref).id)
    consume)).playCue .workflow (some item.id) asAttack

/-- Put a result and its table in place. -/
def resolved (s : Session) (result : Played × Table) : Session × Progress :=
  (s.withTable result.2, .done result.1)

/-- Make an attack. -/
def playAttack (s : Session) (subject : TokenRef) (payload : AttackPayload) : Session × Progress :=
  match s.table.board.prepareAttack subject payload s.host.reveals with
  | .error outcome => (s, .done (.ok outcome))
  | .ok ready =>
    if s.host.usesWorkflow then
      s.playWorkflow subject ready.item [ready.target] payload.consumeResource true
    else s.resolved (s.table.resolveAttack subject ready payload)

/-- Use an item. -/
def playItem (s : Session) (subject : TokenRef) (payload : ItemPayload) : Session × Progress :=
  match s.table.board.usableItem subject payload.itemId with
  | .error outcome => (s, .done (.ok outcome))
  | .ok item =>
    if s.host.usesWorkflow then s.playWorkflow subject item [] true false
    else s.resolved (s.table.resolveItem subject item)

/-- Walk on: reach the goal if no square is left, else step to the next square and pause
there, unless the pause is too long or pauses have been called off, which ends the walk. -/
def walkOn (s : Session) (mover : TokenRef) (goal : Position) (unpaced : Bool) :
    List Position → Session × Progress
  | [] =>
    let (outcome, table) := s.table.arrive (s.token mover).name goal
    (s.withTable table, .done (.ok outcome))
  | square :: ahead =>
    let s := { s with table := s.table.step (s.token mover).id square }
    if isOverlong s.host.settings.waypointDelay then (s, .done (.error .overlong))
    else if unpaced then (s, .done (.ok (.interrupted square)))
    else (s, .held (.walk mover square ahead goal))

/-- Move, pausing on a walked route. -/
def playMovement (s : Session) (subject : TokenRef) (payload : MovementPayload) (unpaced : Bool) :
    Session × Progress :=
  match s.table.board.planMovement subject payload s.host.reveals s.host.settings.defaultSpeed with
  | .error played => (s, .done played)
  | .ok route =>
    if route.walked then s.walkOn subject route.goal unpaced route.squares
    else
      { s with table := s.table.step (s.token subject).id route.goal }.walkOn subject route.goal
        unpaced []

/-- Move without any pause. -/
def playMovementAtOnce (s : Session) (subject : TokenRef) (payload : MovementPayload) :
    Session × Progress :=
  s.resolved (s.table.movement subject payload s.host.reveals s.host.settings.defaultSpeed)

/-- Take up a held use. `rested` tells whether its pause went to its end, and `unpaced` whether
later pauses have been called off. -/
def resume (s : Session) (rested unpaced : Bool) : Call → Session × Progress
  | .walk mover here ahead goal =>
    if rested then s.walkOn mover goal unpaced ahead
    else (s, .done (.ok (.interrupted here)))
  | .cued part cue asAttack =>
    let (s, result) := s.perform part cue asAttack
    (s, .done result)

/-- Play the data of an action as a part, if anyone plays that part and the data can be read. -/
def playAs {π : Type} (s : Session) (part : Part) (player : Player) (action : Action)
    (read : Fields → Record.Checked π) (play : π → Session × Progress) : Session × Progress :=
  if player = .missing then (s, .done (.ok (.unavailable part)))
  else match read action.data with
    | .refused faults => (s, .done (.ok (.unreadable action.name faults)))
    | .ok payload => play payload

/-- Dispatch an action to whoever plays its kind. -/
def dispatchBy (s : Session) (action : Action) (move : MovementPayload → Session × Progress)
    (attack : AttackPayload → Session × Progress) (use : ItemPayload → Session × Progress) :
    Session × Progress :=
  match action.kind with
  | .movement => s.playAs .movement s.host.movement action MovementPayload.readFields move
  | .attack | .spell | .bonusAction | .reaction =>
    s.playAs .attack s.host.attack action AttackPayload.readFields attack
  | .item => s.playAs .item s.host.item action ItemPayload.readFields use
  | .endTurn => (s, .done (.ok { success := true, kind := .info, message := "Turn ended" }))
  | .other name =>
    (s, .done (.ok (.failure .unknownActionType ("Unknown action type: " ++ name))))

/-- Dispatch an action of a token: it is played by the standard rules or by the host. -/
def dispatch (s : Session) (subject : TokenRef) (action : Action) (unpaced : Bool) :
    Session × Progress :=
  s.dispatchBy action
    (fun p => if s.host.movement = .cued then s.playPart .movement subject p.targetId
      else s.playMovement subject p unpaced)
    (fun p => if s.host.attack = .cued then s.playPart .attack subject p.itemId
      else s.playAttack subject p)
    (fun p => if s.host.item = .cued then s.playPart .item subject p.itemId
      else s.playItem subject p)

end Session
end TurnScript
