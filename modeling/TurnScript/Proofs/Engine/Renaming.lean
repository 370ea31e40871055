import Mathlib.Logic.Equiv.Defs
import TurnScript.Proofs.Engine.History

/-!
# Renaming the actions of a run

A run tells actions apart by their ids, finds branch targets by them and keeps its ledger under
them. It does nothing else with an id, so a permutation of all ids goes through everything that a
run can be told: whether the actions are renamed before or after makes no difference. Links may be
renamed in another way than ids, as long as they still lead to the same actions, and order numbers
play no part any more once a run has begun.
-/

namespace TurnScript

/-- A run keeps its script, whatever it is told. -/
theorem Run.script_tell (r : Run) (active : Bool) (reply : Reply) :
    (r.tell active reply).script = r.script := by
  unfold tell branch record
  repeat' split
  all_goals first | rfl | rw [walk_keeps]

namespace Engine

variable {σ : Type}

/-- The script of a run. -/
def script? (e : Engine σ) (ref : RunRef) : Option (List Action) :=
  (e.run? ref).map (·.script)

theorem script?_change (e : Engine σ) (ref other : RunRef) {f : Run → Run}
    (keeps : ∀ r, (f r).script = r.script) : (e.change ref f).script? other = e.script? other := by
  rw [script?, run?_change]
  split
  · simp [script?, Function.comp_def, keeps]
  · rfl

theorem script?_tell (e : Engine σ) (ref other : RunRef) (reply : Reply) :
    (e.tell ref reply).script? other = e.script? other := by
  rw [script?, tell, run?_release]
  exact e.script?_change ref other fun r => r.script_tell _ reply

theorem script?_stop (e : Engine σ) (other : RunRef) : e.stop.script? other = e.script? other := by
  rw [script?, show e.stop = e.effect .stopped from rfl, run?_stopped]
  split
  · simp [script?, Function.comp_def, Run.halted]
  · rfl

end Engine

/-- A renaming of actions: another id for every id, and other order numbers and links. -/
structure Renaming where
  name : Equiv.Perm String
  place : Action → Int
  link : Option String → Option String

namespace Renaming

variable (π : Renaming)

/-- The renaming that changes nothing. -/
def same : Renaming where
  name := Equiv.refl String
  place action := action.order
  link reference := reference

/-- The renaming of an action. -/
def action (a : Action) : Action :=
  { a with
    id := π.name a.id
    order := π.place a
    onSuccess := π.link a.onSuccess
    onFailure := π.link a.onFailure }

/-- The renaming of a ledger. -/
def ledger (ledger : Ledger) : Ledger :=
  ledger.map fun (id, outcome) => (π.name id, outcome)

/-- The renaming of a stage. -/
def stage : Stage → Stage
  | .asking action rest => .asking (π.action action) (rest.map π.action)
  | .skipping action rest => .skipping (π.action action) (rest.map π.action)
  | .acting action rest => .acting (π.action action) (rest.map π.action)
  | .pacing action outcome rest => .pacing (π.action action) outcome (rest.map π.action)
  | .branching target rest => .branching (π.action target) (rest.map π.action)
  | .settling rest => .settling (rest.map π.action)
  | .reporting => .reporting
  | .failing mishap => .failing mishap
  | .ended how => .ended how

/-- The renaming of a run. -/
def run (r : Run) : Run :=
  { r with script := r.script.map π.action, ledger := π.ledger r.ledger, stage := π.stage r.stage }

/-- A renaming suits a script if its links lead to the actions that they led to before, under
their new ids. -/
def Suits (script : List Action) : Prop :=
  ∀ link, (nonempty (π.link link)).bind (findAction? (script.map π.action)) =
    ((nonempty link).bind (findAction? script)).map π.action

variable {π} {script : List Action}

/-! ## Ledgers -/

/-- Recording an outcome under the new id is recording it under the old one. -/
theorem record_ledger (π : Renaming) (ledger : Ledger) (id : String) (outcome : Outcome) :
    (π.ledger ledger).record (π.name id) outcome = π.ledger (ledger.record id outcome) := by
  unfold Ledger.record Renaming.ledger
  induction ledger with
  | nil => rfl
  | cons entry rest inductionHypothesis =>
    obtain ⟨other, old⟩ := entry
    by_cases found : other = id
    · simp [Ordered.put, found]
    · simp [Ordered.put, found, inductionHypothesis]

/-- A verdict rests on the outcomes in a ledger and not on its ids. -/
theorem verdict_ledger (π : Renaming) (condition : Condition) (token : Token) (ledger : Ledger)
    (range : RangeAnswer) :
    condition.verdict token (π.ledger ledger) range = condition.verdict token ledger range := by
  have attack : (π.ledger ledger).firstAttack? = ledger.firstAttack? := by
    simp [Ledger.firstAttack?, Renaming.ledger, List.find?_map, Function.comp_def]
  have save : (π.ledger ledger).firstSave? = ledger.firstSave? := by
    simp [Ledger.firstSave?, Renaming.ledger, List.find?_map, Function.comp_def]
  simp only [Condition.verdict, Condition.check, attack, save]

/-! ## Runs -/

theorem bind_branchAfter (suits : π.Suits script) (action : Action) (outcome : Outcome) :
    ((π.action action).branchAfter outcome).bind (findAction? (script.map π.action)) =
      ((action.branchAfter outcome).bind (findAction? script)).map π.action := by
  unfold Action.branchAfter Renaming.action
  split
  · exact suits _
  · exact suits _

theorem close_run (π : Renaming) (r : Run) : (π.run r).close = π.run r.close := by
  cases stopped : r.stopped <;> simp [Run.close, run, stage, stopped]

theorem walk_run (π : Renaming) (r : Run) (active : Bool) (rest : List Action) :
    (π.run r).walk active (rest.map π.action) = π.run (r.walk active rest) := by
  cases rest with
  | nil => exact close_run π r
  | cons action rest =>
    cases active with
    | false => exact close_run π r
    | true => rfl

theorem record_run (π : Renaming) (r : Run) (action : Action) (outcome : Outcome) :
    (π.run r).record (π.action action) outcome = π.run (r.record action outcome) := by
  simp only [Run.record, run, Renaming.action, record_ledger]

theorem branch_run {r : Run} (suits : π.Suits r.script) (active : Bool) (action : Action)
    (outcome : Outcome) (rest : List Action) :
    (π.run r).branch active (π.action action) outcome (rest.map π.action) =
      π.run (r.branch active action outcome rest) := by
  have leads := bind_branchAfter suits action outcome
  cases active with
  | false => exact close_run π r
  | true =>
    simp only [Run.branch, Bool.not_true, Bool.false_eq_true, if_false]
    rw [show (π.run r).script = r.script.map π.action from rfl, leads]
    cases (action.branchAfter outcome).bind (findAction? r.script) with
    | none => exact walk_run π r true rest
    | some target => rfl

/-- Telling a renamed run is renaming the told one. -/
theorem tell_run {r : Run} (suits : π.Suits r.script) (active : Bool) (reply : Reply) :
    (π.run r).tell active reply = π.run (r.tell active reply) := by
  have staged : (π.run r).stage = π.stage r.stage := rfl
  cases standing : r.stage with
  | asking action rest =>
    cases reply with
    | verdict holds =>
      cases holds <;> simp only [Run.tell, staged, standing, stage] <;> rfl
    | _ => simp only [Run.tell, staged, standing, stage]
  | skipping action rest =>
    cases reply with
    | noted => simpa only [Run.tell, staged, standing, stage] using walk_run π r active rest
    | _ => simp only [Run.tell, staged, standing, stage] <;> rfl
  | acting action rest =>
    cases reply with
    | outcome outcome =>
      simp only [Run.tell, staged, standing, stage, record_run]
      rfl
    | _ => simp only [Run.tell, staged, standing, stage]
  | pacing action outcome rest =>
    cases reply with
    | paused =>
      simpa only [Run.tell, staged, standing, stage] using
        branch_run suits active action outcome rest
    | _ => simp only [Run.tell, staged, standing, stage] <;> rfl
  | branching target rest =>
    cases reply with
    | outcome outcome =>
      simp only [Run.tell, staged, standing, stage, record_run]
      rfl
    | _ => simp only [Run.tell, staged, standing, stage]
  | settling rest =>
    cases reply with
    | paused =>
      cases active with
      | false => simpa [Run.tell, staged, standing, stage] using close_run π r
      | true => simpa [Run.tell, staged, standing, stage] using walk_run π r true rest
    | _ => simp only [Run.tell, staged, standing, stage] <;> rfl
  | reporting => cases reply <;> simp only [Run.tell, staged, standing, stage] <;> rfl
  | failing mishap => cases reply <;> simp only [Run.tell, staged, standing, stage] <;> rfl
  | ended how => cases reply <;> simp only [Run.tell, staged, standing, stage]

theorem played?_run (π : Renaming) (r : Run) : (π.run r).played? = r.played?.map π.action := by
  cases standing : r.stage <;> simp [Run.played?, run, stage, standing]

theorem isOver_run (π : Renaming) (r : Run) : (π.run r).isOver = r.isOver := by
  cases standing : r.stage <;> simp [Run.isOver, run, stage, standing]

theorem rank_run (π : Renaming) (r : Run) : (π.run r).rank = r.rank := by
  cases standing : r.stage <;> simp [Run.rank, run, stage, standing]

/-- Actions that stand in the order of their numbers run as they stand. -/
theorem runnable_of_pairwise (rising : script.Pairwise fun a b => a.order ≤ b.order) :
    runnable script = script.filter (·.enabled) := by
  apply List.mergeSort_of_pairwise
  simpa using rising.filter _

/-- A renamed script is walked as the old one if both stand in the order of their numbers. -/
theorem runnable_map (rising : script.Pairwise fun a b => a.order ≤ b.order)
    (renamedRising : (script.map π.action).Pairwise fun a b => a.order ≤ b.order) :
    runnable (script.map π.action) = (runnable script).map π.action := by
  rw [runnable_of_pairwise rising, runnable_of_pairwise renamedRising, List.filter_map]
  rfl

theorem begin_map (walked : runnable (script.map π.action) = (runnable script).map π.action) :
    Run.begin (script.map π.action) = π.run (Run.begin script) := by
  rw [Run.begin, walked]
  exact walk_run π { script, stage := .reporting } true (runnable script)

/-! ## Engines -/

variable {σ : Type} {ref other : RunRef} {e : Engine σ}

/-- The renaming of one run of an engine. -/
def engine (π : Renaming) (ref : RunRef) (e : Engine σ) : Engine σ :=
  e.change ref π.run

theorem run?_engine (π : Renaming) (ref : RunRef) (e : Engine σ) :
    (π.engine ref e).run? ref = (e.run? ref).map π.run := by
  rw [engine, Engine.run?_change, if_pos rfl]

/-- Whether a run may go on is not changed. -/
theorem isActive_engine (π : Renaming) (ref other : RunRef) (e : Engine σ) :
    (π.engine ref e).isActive other = e.isActive other := by
  have unstopped : ((π.engine ref e).run? other).any (!·.stopped) =
      (e.run? other).any (!·.stopped) := by
    rw [engine, Engine.run?_change]
    split
    · cases e.run? other <;> rfl
    · rfl
  simp only [Engine.isActive, unstopped]
  rfl

/-- Two changes that can be made to a run in either order can be made to an engine so. -/
theorem change_change_comm {f g : Run → Run}
    (commute : ∀ r, e.run? ref = some r → other = ref → f (g r) = g (f r)) :
    (e.change ref f).change other g = (e.change other g).change ref f := by
  simp only [Engine.change, Engine.mk.injEq, true_and]
  apply List.ext_getElem?
  intro place
  simp only [List.getElem?_modify]
  cases found : e.entries[place]? with
  | none => split <;> split <;> rfl
  | some entry =>
    by_cases atRef : ref = place
    · by_cases atOther : other = place
      · have known : e.run? ref = some entry.run := by simp [Engine.run?, atRef, found]
        simp [atRef, atOther, commute entry.run known (atOther.trans atRef.symm)]
      · simp [atRef, atOther]
    · simp [atRef]

theorem release_engine (π : Renaming) (ref other : RunRef) (e : Engine σ) :
    (π.engine ref e).release other = π.engine ref (e.release other) := by
  have ended : ((π.engine ref e).run? other).any (·.isOver) = (e.run? other).any (·.isOver) := by
    rw [engine, Engine.run?_change]
    split
    · cases e.run? other with
      | none => rfl
      | some r => exact isOver_run π r
    · rfl
  have held : (π.engine ref e).active = e.active := rfl
  simp only [Engine.release, ended, held]
  split <;> rfl

/-- Telling the renamed run something is renaming it once it has been told. -/
theorem tell_engine (suits : ∀ script ∈ e.script? ref, π.Suits script) (reply : Reply) :
    (π.engine ref e).tell ref reply = π.engine ref (e.tell ref reply) := by
  rw [Engine.tell, Engine.tell, isActive_engine, ← release_engine]
  refine congrArg (Engine.release · ref) (change_change_comm fun r known _ => ?_)
  have suited : π.Suits r.script := suits r.script (by simp [Engine.script?, known])
  exact (tell_run suited _ reply).symm

theorem stop_engine (π : Renaming) (ref : RunRef) (e : Engine σ) :
    (π.engine ref e).stop = π.engine ref e.stop := by
  cases held : e.active with
  | none => simp [Engine.stop, engine, Engine.change, held]
  | some other =>
    have stopped : (e.change ref π.run).change other Run.halted =
        (e.change other Run.halted).change ref π.run :=
      change_change_comm fun _ _ _ => rfl
    have entries := congrArg Engine.entries stopped
    simp only [Engine.change, Run.halted] at entries
    simp [Engine.stop, engine, Engine.change, held, entries]

theorem entries_engine (π : Renaming) (ref : RunRef) (e : Engine σ) :
    (π.engine ref e).entries[ref]? =
      (e.entries[ref]?).map fun entry => ⟨entry.subject, π.run entry.run⟩ := by
  simp [engine, Engine.change]

/-- The state of an engine tells of no id. -/
theorem status_engine (π : Renaming) (ref : RunRef) (e : Engine σ) :
    (π.engine ref e).status = e.status := by
  have held : (π.engine ref e).active = e.active := rfl
  cases active : e.active with
  | none =>
    simp only [Engine.status, held, active, Option.bind_none]
    rfl
  | some other =>
    simp only [Engine.status, active, Option.bind_some, engine, Engine.change,
      List.getElem?_modify]
    cases e.entries[other]? with
    | none => rfl
    | some entry =>
      by_cases atRef : ref = other
      · simp [atRef, run, ledger]
      · simp [atRef]

/-- A run that is not there yet cannot be renamed. -/
theorem engine_beyond (π : Renaming) (beyond : e.entries.length ≤ ref) : π.engine ref e = e := by
  simp [engine, Engine.change, List.modify_eq_self beyond]

/-- Changing what was appended last. -/
theorem modify_append_singleton {α : Type} (f : α → α) (items : List α) (last : α) :
    (items ++ [last]).modify items.length f = items ++ [f last] := by
  induction items with
  | nil => rfl
  | cons item rest inductionHypothesis => simp [inductionHypothesis]

/-- Submitting a renamed script is renaming the run of the script that is submitted. -/
theorem submit_engine (walked : runnable (script.map π.action) = (runnable script).map π.action)
    (e : Engine σ) (subject : σ) :
    e.submit subject (script.map π.action) =
      (e.submit subject script).map fun (ref, next) => (ref, π.engine e.entries.length next) := by
  cases free : e.executing with
  | true => simp [Engine.submit, free]
  | false =>
    simp only [Engine.submit, free, Bool.false_eq_true, if_false, Option.map_some, begin_map walked,
      engine, Engine.change, modify_append_singleton]

end Renaming
end TurnScript
