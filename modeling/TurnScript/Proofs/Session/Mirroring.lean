import Mathlib.Data.List.Basic
import TurnScript.Proofs.Session.Disguise

/-!
# Performances that mirror each other

What a performance does to the world is seen without ids: of what kind its dispatches are and what
data they have, how its conditions were answered, what came of the dispatches, how many there were,
and what the table is like. A script and its renaming are performed alike in all this, and their
ledgers differ in the ids alone: the two performances are disguises of one, in a session that has
been told nothing yet.
-/

namespace TurnScript

namespace Disguise

variable {d : Disguise}

theorem playsIn_log (d : Disguise) (log : List (Run × Reply)) :
    playsIn (d.log log) =
      (playsIn log).map fun (action, outcome) => (d.names.action action, outcome) := by
  have concluded : ∀ (run : Run) (reply : Reply), (d.names.run run).play? reply =
      (run.play? reply).map fun (action, outcome) => (d.names.action action, outcome) := by
    intro run reply
    cases reply with
    | outcome outcome =>
      simp only [Run.play?, Renaming.played?_run]
      cases run.played? <;> rfl
    | _ => rfl
  rw [playsIn, Disguise.log, List.filterMap_map, playsIn, List.map_filterMap]
  exact List.filterMap_congr fun entry _ => concluded entry.1 entry.2

theorem verdictsIn_log (d : Disguise) (log : List (Run × Reply)) :
    verdictsIn (d.log log) = verdictsIn log := by
  have answered : ∀ (run : Run) (reply : Reply),
      (d.names.run run).verdict? reply = run.verdict? reply := by
    intro run reply
    have staged : (d.names.run run).stage = d.names.stage run.stage := rfl
    cases reply with
    | verdict holds =>
      simp only [Run.verdict?, staged]
      cases run.stage <;> rfl
    | _ => rfl
  rw [verdictsIn, Disguise.log, List.filterMap_map]
  exact List.filterMap_congr fun entry _ => answered entry.1 entry.2

theorem run?_performance {p : Performance} (mine : p.ref = d.ref) :
    (d.performance p).run? = p.run?.map d.names.run := by
  rw [Performance.run?, Performance.run?, mine]
  exact (congrArg (d.session p.session).engine.run? mine).trans (run?_session d p.session)

end Disguise

namespace Renaming

theorem map_action_same (actions : List Action) : actions.map same.action = actions :=
  List.map_id actions

theorem suits_same (script : List Action) : same.Suits script := by
  intro link
  rw [map_action_same]
  exact (congrFun Option.map_id _).symm

theorem ledger_same (ledger : Ledger) : same.ledger ledger = ledger :=
  List.map_id ledger

theorem summary_same : same.summary = id := by
  funext summary
  rw [Renaming.summary, ledger_same]
  rfl

theorem standing_same (standing : Standing) : same.standing standing = standing := by
  rcases standing with (mishap | summary) | hold
  · rfl
  · rw [Renaming.standing, summary_same]
    rfl
  · rfl

theorem event_same : same.event = id := by
  funext event
  cases event with
  | rangeAsked subject action => cases action <;> rfl
  | turnRan summary =>
    rw [event, summary_same]
    simp
  | _ => rfl

end Renaming

namespace Performance

/-- The dispatches of a performance: of what kind, with what data, and with what outcome. -/
def dispatches (p : Performance) : List (ActionKind × Fields × Outcome) :=
  (playsIn p.log).map fun (action, outcome) => (action.kind, action.data, outcome)

/-- The dispatch that has not come to an outcome yet. -/
def underWay? (p : Performance) : Option (ActionKind × Fields) :=
  (p.run?.bind Run.played?).map fun action => (action.kind, action.data)

/-- Two performances that differ in the ids of actions only. `told` is what the host had been told
before. -/
structure Mirrors (π : Renaming) (told : List Event) (p other : Performance) : Prop where
  dispatches : other.dispatches = p.dispatches
  underWay : other.underWay? = p.underWay?
  verdicts : verdictsIn other.log = verdictsIn p.log
  counts : other.run?.map (fun r => (r.executed, r.skipped)) =
    p.run?.map fun r => (r.executed, r.skipped)
  ledger : other.run?.map (·.ledger) = p.run?.map fun r => π.ledger r.ledger
  standing : other.standing = π.standing p.standing
  table : other.session.table = p.session.table
  events : ∃ events, p.session.trace = events ++ told ∧
    other.session.trace = events.map π.event ++ told

theorem dispatches_performance (d : Disguise) (p : Performance) :
    (d.performance p).dispatches = p.dispatches := by
  have logged : (d.performance p).log = d.log p.log := rfl
  rw [dispatches, dispatches, logged, Disguise.playsIn_log, List.map_map]
  rfl

theorem underWay?_performance {d : Disguise} {p : Performance} (mine : p.ref = d.ref) :
    (d.performance p).underWay? = p.underWay? := by
  rw [underWay?, underWay?, Disguise.run?_performance mine]
  cases p.run? with
  | none => rfl
  | some r =>
    simp only [Option.map_some, Option.bind_some, Renaming.played?_run]
    cases r.played? <;> rfl

/-- Two disguises of a performance mirror each other. -/
theorem mirrors_performance (π : Renaming) (told : List Event) (p : Performance) :
    Mirrors π told (Disguise.performance ⟨.same, p.ref, told⟩ p)
      (Disguise.performance ⟨π, p.ref, told⟩ p) where
  dispatches := (dispatches_performance _ p).trans (dispatches_performance _ p).symm
  underWay := (underWay?_performance rfl).trans (underWay?_performance rfl).symm
  verdicts := (Disguise.verdictsIn_log _ p.log).trans (Disguise.verdictsIn_log _ p.log).symm
  counts := by
    rw [Disguise.run?_performance rfl, Disguise.run?_performance rfl, Option.map_map,
      Option.map_map]
    rfl
  ledger := by
    rw [Disguise.run?_performance rfl, Disguise.run?_performance rfl, Option.map_map,
      Option.map_map]
    refine Option.map_congr fun r _ => ?_
    exact congrArg π.ledger (Renaming.ledger_same r.ledger).symm
  standing := congrArg π.standing (Renaming.standing_same p.standing).symm
  table := rfl
  events := by
    refine ⟨p.session.trace, ?_, rfl⟩
    change p.session.trace.map Renaming.same.event ++ told = p.session.trace ++ told
    rw [Renaming.event_same, List.map_id]

end Performance

/-- Interludes do not change whose run a performance is of. -/
theorem Performance.ref_foldl_goOn (p : Performance) (interludes : List Interlude) :
    (interludes.foldl goOn p).ref = p.ref := by
  induction interludes generalizing p with
  | nil => rfl
  | cons interlude rest inductionHypothesis =>
    refine (inductionHypothesis (p.goOn interlude)).trans ?_
    rcases p with ⟨ref, session, _ | _, log⟩ <;> rfl

/-- A performance is that of a new run. -/
theorem Session.ref_perform? {s : Session} {subject : TokenRef} {script : List Action}
    {interludes : List Interlude} {p : Performance}
    (performed : s.perform? subject script interludes = some p) :
    p.ref = s.engine.entries.length := by
  obtain ⟨⟨ref, next⟩, submitted, rfl⟩ := Option.map_eq_some_iff.mp performed
  exact (Performance.ref_foldl_goOn _ interludes).trans (submit_fresh submitted).1

/-- A suitable renaming of a script is performed as the script is: with the same dispatches,
verdicts, outcomes and counts, with the renamed ledger, and with the same changes to the table. -/
theorem Session.mirrors_perform? (s : Session) (subject : TokenRef) {script : List Action}
    {π : Renaming} (suits : π.Suits script)
    (rising : script.Pairwise fun a b => a.order ≤ b.order)
    (renamedRising : (script.map π.action).Pairwise fun a b => a.order ≤ b.order)
    (interludes : List Interlude) :
    Option.Rel (Performance.Mirrors π s.trace) (s.perform? subject script interludes)
      (s.perform? subject (script.map π.action) interludes) := by
  -- Both performances are disguises of one in a session that has been told nothing.
  let blank : Session := { s with trace := [] }
  have blanked : ∀ names, Disguise.session ⟨names, s.engine.entries.length, s.trace⟩ blank = s := by
    intro names
    have engine : names.engine s.engine.entries.length s.engine = s.engine :=
      names.engine_beyond (Nat.le_refl _)
    rw [Disguise.session]
    change { s with engine := names.engine _ s.engine } = s
    rw [engine]
  have walked : runnable (script.map Renaming.same.action) =
      (runnable script).map Renaming.same.action := by
    rw [Renaming.map_action_same, Renaming.map_action_same]
  have plain := Disguise.perform?_session (s := blank)
    (d := ⟨.same, s.engine.entries.length, s.trace⟩) rfl
    (Renaming.suits_same script) walked subject interludes
  have masked := Disguise.perform?_session (s := blank)
    (d := ⟨π, s.engine.entries.length, s.trace⟩) rfl suits
    (Renaming.runnable_map rising renamedRising) subject interludes
  rw [blanked] at plain masked
  rw [Renaming.map_action_same] at plain
  rw [plain, masked]
  cases performed : blank.perform? subject script interludes with
  | none => exact .none
  | some p =>
    have mine : p.ref = s.engine.entries.length := Session.ref_perform? (s := blank) performed
    refine .some ?_
    rw [← mine]
    exact p.mirrors_performance π s.trace

end TurnScript
