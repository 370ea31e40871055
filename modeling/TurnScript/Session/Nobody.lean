import TurnScript.Play.Nobody
import TurnScript.Session.Activity

/-!
# Calls for nobody

A call of a session can be made where there is no token. An action is played as far as it can be
played for nobody; the host, and the workflow of the host, ask who it is first of all. A run is
more than a mishap: it never begins, but from then on the engine is held.
-/

namespace TurnScript.Session

/-- Play for nobody: by the standard rules, or by a host, who gets no further than asking. -/
def playForNobody {π : Type} (s : Session) (player : Player) (play : π → Played × Table)
    (payload : π) : Session × Progress :=
  if player = .cued then (s, .done (.error (.nobody "id"))) else s.resolved (play payload)

/-- Dispatch an action of nobody. -/
def dispatchForNobody (s : Session) (action : Action) : Session × Flow :=
  flowOfUse (some action.name) (s.dispatchBy action
    (s.playForNobody s.host.movement s.table.moveForNobody)
    (s.playForNobody s.host.attack (s.table.attackForNobody s.host.usesWorkflow))
    (s.playForNobody s.host.item (s.table.useForNobody s.host.usesWorkflow)))

/-- Move nobody by itself. -/
def moveForNobody (s : Session) (payload : Json) : Session × Flow :=
  s.playAlone (MovementPayload.read payload) fun p => s.resolved (s.table.moveForNobody p)

/-- Attack for nobody by itself. -/
def attackForNobody (s : Session) (payload : Json) : Session × Flow :=
  s.playAlone (AttackPayload.read payload) fun p =>
    s.resolved (s.table.attackForNobody s.host.usesWorkflow p)

/-- Use an item for nobody by itself. -/
def useForNobody (s : Session) (payload : Json) : Session × Flow :=
  s.playAlone (ItemPayload.read payload) fun p =>
    s.resolved (s.table.useForNobody s.host.usesWorkflow p)

/-- Ask for a run of nobody. Unless a run is being executed, the engine is held then. -/
def runForNobody (s : Session) : Session × Flow :=
  ({ s with heldForNobody := s.heldForNobody || !s.engine.executing },
    .over (.failed (.mishap namelessSubject)))

/-- A turn of nobody. -/
def turnForNobody (s : Session) (isNew : Bool) : Session × Flow :=
  (s, .over (if isNew then .failed (.mishap (.nobody "id")) else .summary none))

end TurnScript.Session
