import TurnScript.Combat.Errand
import TurnScript.Session.Host
import TurnScript.Store.Archive

/-!
# Sessions

A session is the board and dice on the table, the archive of queues, the engine, and the
combats, under one host, with the events so far. The host is told of skipped actions and of
the end of each run; it may stop the engine then, and it may fail to take the notice, which
is answered with its error.

A run can be asked for where there is no token. It fails before it begins and leaves the engine
held for nobody: no run begins after that, and the engine neither stops nor tells its status.
-/

namespace TurnScript

/-- What can go wrong with a call. -/
inductive Failure where
  | mishap (mishap : Mishap)
  | store (error : StoreError)
  /-- A path has the character that would end it. -/
  | terminatedPath
  deriving Repr, DecidableEq

/-- A reference to a combat. -/
abbrev CombatRef := Nat

/-- A table with everything that acts on it. -/
structure Session where
  host : Host := {}
  table : Table := {}
  archive : Archive := {}
  engine : Engine TokenRef := {}
  /-- Whether the engine is held for nobody. -/
  heldForNobody : Bool := false
  /-- All combats that were ever set up. -/
  combats : List Combat := []
  /-- Gates that have been opened. -/
  opened : List String := []
  /-- Events so far, latest first. -/
  trace : List Event := []
  deriving Repr, DecidableEq, Inhabited

namespace Session

/-- Add an event. -/
def emit (s : Session) (event : Event) : Session :=
  { s with trace := event :: s.trace }

/-- Add a remark. -/
def remark (s : Session) (source : String) (level : Level) (text : String) : Session :=
  s.emit (.remark ⟨source, level, text⟩)

/-- Put a table in place; the remarks left on it become events. -/
def withTable (s : Session) (table : Table) : Session :=
  { s with table := { table with remarks := [] }, trace := table.remarks.map .remark ++ s.trace }

/-- The token of a reference. -/
def token (s : Session) (ref : TokenRef) : Token :=
  s.table.token ref

/-- Change a token. -/
def change (s : Session) (ref : TokenRef) (f : Token → Token) : Session :=
  { s with table := s.table.change ref f }

/-- A combat of the session. -/
def combat (s : Session) (ref : CombatRef) : Combat :=
  s.combats.getD ref default

/-- Set up a combat. -/
def addCombat (s : Session) (c : Combat) : CombatRef × Session :=
  (s.combats.length, { s with combats := s.combats ++ [c] })

/-- Put a combat and a table in place. -/
def withCombat (s : Session) (ref : CombatRef) (c : Combat) (table : Table) : Session :=
  { s with combats := s.combats.set ref c }.withTable table

/-- What goes wrong when the engine is asked about itself while it is held for nobody. -/
def namelessSubject : Mishap := .nobody "name"

/-- The state of the engine, its subject by name. -/
def status (s : Session) : Except Mishap (Engine.Status String) :=
  if s.heldForNobody then .error namelessSubject
  else
    let status := s.engine.status
    .ok ⟨status.executing, status.subject.map fun ref => (s.token ref).name, status.completed⟩

/-- Emergency stop, or what went wrong with it. -/
def stop (s : Session) : Session × Option Mishap :=
  if s.heldForNobody then (s, some namelessSubject)
  else match s.engine.status.subject with
    | none => ({ s with engine := s.engine.stop }, none)
    | some ref =>
      ({ s with engine := s.engine.stop }.remark "engine" .info
        ("Action execution stopped for " ++ (s.token ref).name), none)

/-- Tell the host something: an event, or a line in the log if the host keeps only a log. The
host may stop the engine then. Answers with what goes wrong, and with the error of a host that
fails to take the notice. -/
def notify (s : Session) (notice : Notice) (event : Event) (line : Level × String) :
    Session × Option Mishap :=
  if s.host.logsNotices then (s.remark "notifications" line.1 line.2, none)
  else
    let s := s.emit event
    let (s, mishap) := if s.host.stopsAt.contains notice then s.stop else (s, none)
    (s, mishap.or ((Ordered.get? s.host.failsAt notice).map .host))

/-- Tell the host that a run is complete. -/
def notifySummary (s : Session) (subject : Token) (executed : Nat) : Session × Option Mishap :=
  s.notify .summary (.summarised subject.id executed)
    (.info, "Executed " ++ toString executed ++ " action(s) for " ++ subject.name)

/-- Tell the host that something failed. -/
def notifyError (s : Session) (subject : Token) (error : String) : Session × Option Mishap :=
  s.notify .error (.failed subject.id error)
    (.error, "Action execution failed for " ++ subject.name ++ ": " ++ error)

/-- Why an action is skipped. -/
def skipReason : String := "condition not met"

/-- Tell the host that an action was skipped. -/
def notifySkip (s : Session) (subject : Token) (action : Action) : Session × Option Mishap :=
  s.notify .skip (.skipped subject.id action.id skipReason)
    (.debug, "Skipping action " ++ action.name ++ " for " ++ subject.name ++ ": " ++ skipReason)

end Session
end TurnScript
