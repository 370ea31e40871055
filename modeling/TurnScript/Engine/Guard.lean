import TurnScript.Engine.Run

/-!
# The engine and its guard

One run at a time is active, across all subjects. A script that arrives while a run is
active is dropped. An emergency stop frees the guard at once: the stopped run goes on to its
end, but it is no longer active, and its end does not touch the guard of a newer run.
-/

namespace TurnScript

/-- A reference to a run. -/
abbrev RunRef := Nat

/-- A run with its subject. `subject` is whatever stands for the token whose turn it is. -/
structure Entry (σ : Type) where
  subject : σ
  run : Run
  deriving Repr, DecidableEq

/-- The engine: whether a run is being executed, which one, and all runs that ever began. -/
structure Engine (σ : Type) where
  executing : Bool := false
  active : Option RunRef := none
  entries : List (Entry σ) := []
  deriving Repr, DecidableEq

namespace Engine

variable {σ : Type}

/-- A run of the engine. -/
def run? (e : Engine σ) (ref : RunRef) : Option Run :=
  (e.entries[ref]?).map (·.run)

/-- Whether a run may go on: it is the one that holds the guard, and it has not been stopped. -/
def isActive (e : Engine σ) (ref : RunRef) : Bool :=
  e.executing && e.active == some ref && (e.run? ref).any fun r => !r.stopped

/-- Change a run. -/
def change (e : Engine σ) (ref : RunRef) (f : Run → Run) : Engine σ :=
  { e with entries := e.entries.modify ref fun entry => { entry with run := f entry.run } }

/-- Free the guard if a run that is over still holds it. -/
def release (e : Engine σ) (ref : RunRef) : Engine σ :=
  if (e.run? ref).any (·.isOver) && e.active == some ref then
    { e with executing := false, active := none }
  else e

/-- Begin a run of a script, unless one is being executed. A script with nothing to walk goes
straight to its report. -/
def submit (e : Engine σ) (subject : σ) (script : List Action) : Option (RunRef × Engine σ) :=
  if e.executing then none
  else
    let ref := e.entries.length
    some (ref, { executing := true, active := some ref,
                 entries := e.entries ++ [⟨subject, Run.begin script⟩] })

/-- Tell a run what it waits for. -/
def tell (e : Engine σ) (ref : RunRef) (reply : Reply) : Engine σ :=
  (e.change ref (·.tell (e.isActive ref) reply)).release ref

/-- Stop the active run, if there is one, and free the guard. -/
def stop (e : Engine σ) : Engine σ :=
  let e := match e.active with
    | none => e
    | some ref => e.change ref fun r => { r with stopped := true, unpaced := true }
  { e with executing := false, active := none }

/-- What a host is told about the engine. -/
structure Status (σ : Type) where
  executing : Bool
  subject : Option σ
  completed : Option Nat
  deriving Repr, DecidableEq

/-- The state of the engine. -/
def status (e : Engine σ) : Status σ :=
  let entry := e.active.bind fun ref => e.entries[ref]?
  ⟨e.executing, entry.map (·.subject), entry.map (·.run.ledger.length)⟩

end Engine
end TurnScript
