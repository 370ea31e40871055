import TurnScript.Engine.Guard
import TurnScript.Play.Table
import TurnScript.Settings.Basic

/-!
# The host of a session

The host is whatever the automation is built into. It sets how the automation runs, may
take over any part of play, and is told what happens. A part that is taken over is played
from cues, one for each target or item; so a session with a host can be rehearsed in full.
What the host is told, and what it could have seen, is kept as a list of events.
-/

namespace TurnScript

/-- A part of play that a host can take over. -/
inductive Part where
  | movement
  | attack
  | item
  | workflow
  deriving Repr, DecidableEq

/-- The written name of a part. -/
def Part.name : Part → String
  | movement => "movement"
  | attack => "attack"
  | item => "item"
  | workflow => "workflow"

/-- Who plays a kind of action: the rules of this library, the host by its cues, or no one. -/
inductive Player where
  | standard
  | cued
  | missing
  deriving Repr, DecidableEq, Inhabited

/-- How the host plays a part for one target or item. First it waits for the gate; then it
stops the engine, asks for its status and fails, as far as it is to; else it answers with
the outcome, which may turn out to be none that can be read, or with the usual one of the part. -/
structure Cue where
  gate : Option String := none
  stops : Bool := false
  asksStatus : Bool := false
  fails : Option String := none
  outcome : Option (Record.Checked Outcome) := none
  deriving Repr, DecidableEq, Inhabited

/-- The outcome of a part whose cue names none. -/
def Part.usualOutcome : Part → Outcome
  | movement => { success := true, kind := .movement, message := "moved" }
  | attack => { success := true, kind := .attack, hit := some true, damage := some 4 }
  | item => { success := true, kind := .item, message := "used" }
  | workflow => { success := true, kind := .item, hit := some true, damage := some 3 }

/-- What a host is told about a run. -/
inductive Notice where
  | summary
  | error
  | skip
  deriving Repr, DecidableEq

/-- Who is asked whether a target is in range. -/
inductive RangeChecker where
  | scene
  | absent
  | always (answer : Bool)
  | failing
  deriving Repr, DecidableEq, Inhabited

/-- A host: its settings, the parts it plays, and how it takes its notices. -/
structure Host where
  settings : Settings := {}
  movement : Player := .standard
  attack : Player := .standard
  item : Player := .standard
  /-- Whether the host has a workflow of its own for items. -/
  workflow : Bool := false
  cues : List ((Part × String) × Cue) := []
  /-- Notices go to the log only. -/
  logsNotices : Bool := false
  /-- Notices at which the host stops the engine. -/
  stopsAt : List Notice := []
  /-- Notices that the host fails to take, with the text of the error. -/
  failsAt : List (Notice × String) := []
  range : RangeChecker := .scene
  /-- The tokens whose turns may be driven; all of them if nothing is named. -/
  owned : Option (List String) := none
  deriving Repr, DecidableEq, Inhabited

namespace Host

/-- The cue of a part for a target or item; no target or item goes by the empty name. -/
def cue (host : Host) (part : Part) (key : Option String) : Cue :=
  (Ordered.get? host.cues (part, key.getD "")).getD {}

/-- Whether items are resolved by the host's workflow. -/
def usesWorkflow (host : Host) : Bool :=
  host.workflow && host.settings.useWorkflow

/-- Whether hidden tokens are candidates for targets. -/
def reveals (host : Host) : Bool :=
  host.settings.revealHiddenTargets

end Host

/-- Something that the host is told or could have seen. -/
inductive Event where
  | remark (remark : Remark)
  | played (part : Part) (subject : String) (key : Option String)
  | workflow (subject item : String) (targets : List String) (consume : Bool)
  | status (status : Engine.Status String)
  | summarised (subject : String) (executed : Nat)
  | failed (subject error : String)
  | skipped (subject action reason : String)
  | rangeAsked (subject : String) (action : Option String)
  | turnBegan (round : Nat) (token : String)
  | turnRan (summary : Option Summary)
  deriving Repr, DecidableEq

end TurnScript
