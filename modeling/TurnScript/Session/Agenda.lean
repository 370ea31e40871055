import TurnScript.Session.Activity
import TurnScript.Session.Alarm

/-!
# The agenda

The agenda holds the activities of a session and wakes them. Time passes only when it is
told to, and stops at every moment at which something is due. What wakes is put at the end
of a row and taken up in turn; what was in a pause that can be called off goes around the
row a few times first, because such a pause ends in several steps of its own.

Whatever waits for a time has set an alarm. A pause that is called off silences its alarm only when
it has ended, and a silenced alarm goes away only when it is the first one as a round begins. So
for a while it still counts for the order in which others go off.
-/

namespace TurnScript

/-- For what an activity waits. -/
inductive Wait where
  | time (due : Int)
  /-- A pause that ends when it is due, or when the pauses of the run are called off. -/
  | pause (due : Int) (run : Option RunRef)
  | gate (name : String)
  /-- Only for the others that are ready. -/
  | turn
  | never
  deriving Repr, DecidableEq

/-- Why a waiting activity woke. -/
inductive Waking where
  | elapsed
  | calledOff
  | yielded
  deriving Repr, DecidableEq

/-- An activity that is ready, after so many more times around the row. -/
structure Ready where
  laps : Nat
  waking : Waking
  /-- The alarm that it had set. -/
  alarm : Option Nat
  name : String
  activity : Activity
  deriving Repr, DecidableEq

/-- An activity that waits. -/
structure Waiting where
  wait : Wait
  /-- The alarm that it has set. -/
  alarm : Option Nat
  name : String
  activity : Activity
  deriving Repr, DecidableEq

/-- A session with its clock, the activities that are ready or wait, in order, and the answers
of those that are over, latest first. -/
structure Agenda where
  session : Session := {}
  /-- In milliseconds. -/
  now : Int := 0
  ready : List Ready := []
  /-- How many of those that are ready belong to the round that is under way. -/
  ahead : Nat := 0
  waiting : List Waiting := []
  alarms : Alarms := []
  /-- How many alarms were ever set. -/
  alarmsSet : Nat := 0
  answers : List (String × Answer) := []
  /-- The names of all calls, in the order in which they were made. -/
  calls : List String := []
  deriving Repr, DecidableEq, Inhabited

/-- Times around the row after a pause that went to its end. -/
def elapsedLaps : Nat := 3

/-- Times around the row after a pause that was called off. -/
def calledOffLaps : Nat := 2

/-- The sum of a number over a list. -/
def total {α : Type} (number : α → Nat) (items : List α) : Nat :=
  items.foldl (fun sum item => sum + number item) 0

namespace Session

/-- A wait of so many milliseconds from now. -/
def waitFor (now delay : Int) (wait : Int → Wait) : Wait :=
  if delay ≤ 0 then .turn else wait (now + delay)

/-- For what a held use waits; `run` is the run whose pauses it takes, if any. -/
def waitOfCall (s : Session) (now : Int) (run : Option RunRef) : Call → Wait
  | .walk .. => waitFor now s.host.settings.waypointDelay (.pause · run)
  | .cued _ cue _ => .gate (cue.gate.getD "")

/-- For what a held run waits. -/
def waitOfRun (s : Session) (now : Int) (run : RunRef) : Hold → Wait
  | .pause => waitFor now s.host.settings.pacingDelay (.pause · (some run))
  | .call call => s.waitOfCall now (some run) call

/-- For what an activity waits. -/
def waitOf (s : Session) (now : Int) : Activity → Wait
  | .use call _ => s.waitOfCall now none call
  | .run ref hold => s.waitOfRun now ref hold
  | .errand ref _ (.resting ..) => waitFor now (s.combat ref).rollDelay .time
  | .errand _ _ (.listening _ _ run hold) => s.waitOfRun now run hold
  | .errand _ _ .adrift => .never

/-- The run whose pauses an activity takes. -/
def runOf : Activity → Option RunRef
  | .run ref _ => some ref
  | .errand _ _ (.listening _ _ run _) => some run
  | _ => none

/-- Whether the pause of a waking activity went to its end. -/
def wasRested (s : Session) (waking : Waking) (activity : Activity) : Bool :=
  match waking with
  | .elapsed => true
  | .calledOff => false
  | .yielded => !(runOf activity).any s.unpaced

/-- Squares that the data of an action names. -/
def squaresOf (action : Action) : Nat :=
  match Json.get? action.data "waypoints" with
  | some (.arr squares) => squares.length
  | _ => 0

/-- How often a run can still be taken up. -/
def runSpan (s : Session) (ref : RunRef) : Nat :=
  match s.engine.run? ref with
  | none => 0
  | some run => (run.rank + 1) * (total squaresOf run.script + 2)

/-- Length of a stored text. -/
def textLength (row : Row) : Nat :=
  match row.actions with
  | .text text => text.length
  | _ => 0

/-- How often a run of any stored script can be taken up: a script has no more actions, and
names no more squares, than its text has characters. -/
def storedSpan (s : Session) : Nat :=
  let length := total (fun (_, row) => textLength row) (s.archive.rows.getD [])
  (6 * length + 9) * (length + 2)

/-- How often an activity can still be taken up. -/
def spanOf (s : Session) : Activity → Nat
  | .use (.walk _ _ ahead _) _ => ahead.length + 1
  | .use (.cued ..) _ => 1
  | .run ref _ => s.runSpan ref
  | .errand ref _ (.resting ahead _) =>
    ahead.length + (s.combat ref).combatants.length + 1 +
      (s.combat ref).listeners.length * s.storedSpan
  | .errand _ _ (.listening _ listeners run _) =>
    s.runSpan run + 1 + listeners.length * s.storedSpan
  | .errand _ _ .adrift => 0

end Session

namespace Agenda

/-- When a wait is due. -/
def dueTime? : Wait → Option Int
  | .time due | .pause due _ => some due
  | _ => none

/-- An activity begins to wait. -/
def await (a : Agenda) (name : String) (activity : Activity) : Agenda :=
  match a.session.waitOf a.now activity with
  | .turn => { a with ready := a.ready ++ [⟨0, .yielded, none, name, activity⟩] }
  | wait => match dueTime? wait with
    | none => { a with waiting := a.waiting ++ [⟨wait, none, name, activity⟩] }
    | some due =>
      { a with
        waiting := a.waiting ++ [⟨wait, some a.alarmsSet, name, activity⟩]
        alarms := a.alarms.add { due, serial := a.alarmsSet }
        alarmsSet := a.alarmsSet + 1 }

/-- How a wait ends now without any time passing, if it does. -/
def released? (s : Session) : Wait → Option (Nat × Waking)
  | .gate name => if s.opened.contains name then some (0, .elapsed) else none
  | .pause _ (some run) => if s.unpaced run then some (calledOffLaps, .calledOff) else none
  | _ => none

/-- Make ready, in order, what has been released. -/
def release (a : Agenda) : Agenda :=
  { a with
    ready := a.ready ++ a.waiting.filterMap fun w =>
      (released? a.session w.wait).map fun (laps, waking) =>
        ⟨laps, waking, w.alarm, w.name, w.activity⟩
    waiting := a.waiting.filter fun w => (released? a.session w.wait).isNone }

/-- Times around the row once an alarm has gone off. -/
def lapsOf : Wait → Nat
  | .pause .. => elapsedLaps
  | _ => 0

/-- An alarm goes off: what waits for it is ready. -/
def ring (a : Agenda) (alarm : Alarm) : Agenda :=
  let isMeant (w : Waiting) : Bool := w.alarm == some alarm.serial
  { a with
    ready := a.ready ++ (a.waiting.filter isMeant).map fun w =>
      ⟨lapsOf w.wait, .elapsed, w.alarm, w.name, w.activity⟩
    waiting := a.waiting.filter fun w => !isMeant w }

/-- Silence the alarm of what is taken up, if it had set one. -/
def silence (a : Agenda) (alarm : Option Nat) : Agenda :=
  { a with alarms := (alarm.map a.alarms.silence).getD a.alarms }

/-- Tidy the alarms, as every round begins. -/
def tidy (a : Agenda) : Agenda :=
  { a with alarms := a.alarms.tidied }

/-- Put in place how a call has come along. -/
def settleCall (a : Agenda) (name : String) : Session × Flow → Agenda
  | (session, .over answer) =>
    { { a with session }.release with answers := (name, answer) :: a.answers }
  | (session, .held activity) => { a with session }.release.await name activity

/-- Change the session, and make ready what that releases. -/
def act (a : Agenda) (change : Session → Session) : Agenda :=
  { a with session := change a.session }.release

/-- Make a call under a name. It begins in a round of its own. -/
def call (a : Agenda) (name : String) (begin : Session → Session × Flow) : Agenda :=
  { a.tidy with calls := a.calls ++ [name] }.settleCall name (begin a.session)

/-- Begin a round if the last one is over: it takes in all that is ready by now. -/
def beginRound (a : Agenda) : Agenda :=
  if a.ahead = 0 then { a.tidy with ahead := a.ready.length } else a

/-- Take up the first activity that is ready, or send it around the row. -/
def step? (a : Agenda) : Option Agenda :=
  let a := a.beginRound
  match a.ready with
  | [] => none
  | first :: ready =>
    let a := { a with ready, ahead := a.ahead - 1 }
    match first.laps with
    | laps + 1 => some { a with ready := ready ++ [{ first with laps }] }
    | 0 => some ((a.silence first.alarm).settleCall first.name
        (a.session.takeUpActivity (a.session.wasRested first.waking first.activity)
          first.activity))

/-- How often anything can still be taken up. -/
def span (a : Agenda) : Nat :=
  total (fun r => a.session.spanOf r.activity + 1) a.ready +
    total (fun w => a.session.spanOf w.activity + 1) a.waiting

/-- Take steps, at most so many, until nothing is ready. -/
def steps : Nat → Agenda → Agenda
  | 0, a => a
  | fuel + 1, a => match a.step? with
    | none => a
    | some a => steps fuel a

/-- Steps that are enough until nothing is ready. Whatever is taken up has gone around the row
no more than `elapsedLaps` times before. -/
def patience (a : Agenda) : Nat :=
  (elapsedLaps + 1) * (a.span + 1)

/-- Take up all that is ready, and all that becomes ready meanwhile. -/
def settle (a : Agenda) : Agenda :=
  a.steps a.patience

/-- The next moment at which something is due. -/
def nextDue? (a : Agenda) : Option Int :=
  a.alarms.tidied.head?.map (·.due)

/-- Set the clock forward to a moment; it never goes back. -/
def setClock (a : Agenda) (moment : Int) : Agenda :=
  { a with now := max a.now moment }

/-- Let time pass to a moment at which something is due, and let its alarms go off. -/
def passTo (a : Agenda) (moment : Int) : Agenda :=
  let (due, alarms) := a.alarms.takeDue moment a.alarms.length
  due.foldl ring { a.setClock moment with alarms }

/-- Pass through the moments up to a time, at most so many. -/
def passThrough : Nat → Int → Agenda → Agenda
  | 0, _, a => a
  | fuel + 1, target, a => match a.nextDue? with
    | some moment =>
      if moment ≤ target then passThrough fuel target (a.passTo moment).settle else a
    | none => a

/-- Let time pass, through every moment at which something is due. -/
def advance (a : Agenda) (duration : Int) : Agenda :=
  let target := a.now + duration
  (passThrough (a.span + 1) target a).setClock target

/-- Give up what is under way, but for the runs whose pauses have just been called off: what ends
those pauses keeps them from being given up. -/
def giveUp (a : Agenda) : Agenda :=
  { a with
    ready := a.ready.filter fun r =>
      r.waking == .calledOff && (Session.runOf r.activity).isSome
    ahead := 0
    waiting := [] }

/-- Whether a call is still held. -/
def isHeld (a : Agenda) (name : String) : Bool :=
  a.ready.any (·.name == name) || a.waiting.any (·.name == name)

/-- The names of the calls that are held, in the order in which they were made. -/
def unfinished (a : Agenda) : List String :=
  a.calls.filter a.isHeld

end Agenda
end TurnScript
