import TurnScript.Combat.Basic
import TurnScript.Script.Record
import TurnScript.Script.Report
import TurnScript.Session.Host

/-!
# Records of what a session tells

Reports on scripts, summaries of runs, the state of the engine, the view of a combat and the events
of a session are written as records, and are never read back.
-/

namespace TurnScript

/-- A list of texts. -/
def Json.ofTexts (texts : List String) : Json :=
  .arr (texts.map .str)

/-- A natural number. -/
def Json.ofNat (n : Nat) : Json :=
  .int n

/-- The record of a report. -/
def Report.toRecord (r : Report) : Json :=
  .obj [("ok", .bool r.ok), ("duplicates", .ofTexts r.duplicates),
    ("dangling", .arr (r.dangling.map fun ref =>
      .ofTexts [ref.source, ref.slot.name, ref.target])),
    ("self", .ofTexts r.selfBranches), ("cycles", .arr (r.cycles.map Json.ofTexts)),
    ("problems", .ofTexts r.problems)]

/-- The record of a summary. -/
def Summary.toRecord (s : Summary) : Json :=
  .obj [("subject", .str s.subjectId), ("executed", .ofNat s.executed),
    ("skipped", .ofNat s.skipped), ("stopped", .bool s.stopped),
    ("results", .arr (s.results.map fun (id, outcome) => .arr [.str id, outcome.toRecord]))]

/-- The fields of the state of the engine. -/
def Engine.Status.toFields (s : Engine.Status String) : Fields :=
  [("executing", .bool s.executing), ("current_subject", .ofOption .str s.subject),
    ("actions_completed", .ofOption .ofNat s.completed)]

/-- The fields of the view of a combat. -/
def Combat.View.toFields (v : Combat.View) : Fields :=
  [("round", .ofNat v.round), ("turn", .ofNat v.turn), ("started", .bool v.started),
    ("current", .ofOption .str v.current),
    ("order", .arr (v.order.map fun (id, initiative) =>
      .arr [.str id, .ofOption .int initiative]))]

/-- The record of an event. A turn that is told of is always a new one. -/
def Event.toRecord : Event → Json
  | remark r => .ofTexts ["log", r.source, r.level.name, r.text]
  | played part subject key => .arr [.str part.name, .str subject, .ofOption .str key]
  | workflow subject item targets consume =>
    .arr [.str "workflow", .str subject, .str item, .ofTexts targets, .bool consume]
  | status s => .arr [.str "status", .obj s.toFields]
  | summarised subject executed => .arr [.str "run_summary", .str subject, .ofNat executed]
  | failed subject error => .ofTexts ["run_error", subject, error]
  | skipped subject action reason => .ofTexts ["skip_notice", subject, action, reason]
  | rangeAsked subject action => .arr [.str "range", .str subject, .ofOption .str action]
  | turnBegan round token => .arr [.str "turn", .ofNat round, .str token, .bool true]
  | turnRan summary => .arr [.str "ran", .ofOption Summary.toRecord summary]

end TurnScript
