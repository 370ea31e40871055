import TurnScript.Proofs.Engine.Interpreter
import TurnScript.Proofs.Engine.Visits
import TurnScript.Proofs.Script.Reports

/-!
# Branches that are taken

A report resolves the references of a script by its set of ids; a run resolves one by the first
action that goes by it. A branch is taken when the pause after an action is over, the run may go
on, and the action names something in the slot that its outcome picks. What the run finds then is
settled by the script alone, so the report foretells it: whatever outcomes come, and whatever else
happens to the engine.
-/

namespace TurnScript

/-- The slot of an action that its outcome picks. -/
def Outcome.slot (outcome : Outcome) : Slot :=
  if outcome.success then .onSuccess else .onFailure

/-- The branch that an action takes is what it names in the slot that its outcome picks. -/
theorem Action.branchAfter_eq_link (action : Action) (outcome : Outcome) :
    action.branchAfter outcome = action.link outcome.slot := by
  cases success : outcome.success <;>
    simp [branchAfter, Outcome.slot, link, success]

/-! ## What a script says about its references -/

section Script

variable {script queue : List Action} {id : String} {action : Action}

/-- An action that is found goes by the id, and is one of the script. -/
theorem findAction?_eq_some (found : findAction? script id = some action) :
    action ∈ script ∧ action.id = id :=
  ⟨List.mem_of_find?_eq_some found, by simpa using List.find?_some found⟩

/-- No action is found exactly if none goes by the id. -/
theorem findAction?_eq_none_iff :
    findAction? script id = none ↔ id ∉ script.map (·.id) := by
  simp [findAction?, List.find?_eq_none]

/-- Where ids are told apart, one action goes by the id of an action. -/
theorem filter_id_of_nodup (distinct : (queue.map (·.id)).Nodup) (member : action ∈ queue) :
    queue.filter (·.id == action.id) = [action] := by
  induction queue with
  | nil => cases member
  | cons first rest inductionHypothesis =>
    obtain ⟨unseen, distinctRest⟩ := List.nodup_cons.mp distinct
    rcases List.mem_cons.mp member with rfl | later
    · have none : rest.filter (·.id == action.id) = [] := by
        refine List.filter_eq_nil_iff.mpr fun other inRest same => unseen ?_
        exact List.mem_map.mpr ⟨other, inRest, beq_iff_eq.mp same⟩
      simp [none]
    · have other : first.id ≠ action.id := fun same =>
        unseen (List.mem_map.mpr ⟨action, later, same.symm⟩)
      simpa [other] using inductionHypothesis distinctRest later

/-- A reference is reported as dangling exactly if an action makes it and no action goes by its
target. -/
theorem Report.mem_dangling {ref : Reference} :
    ref ∈ (ofScript queue).dangling ↔
      (∃ action ∈ queue, action.id = ref.source ∧ action.link ref.slot = some ref.target) ∧
        ref.target ∉ queue.map (·.id) := by
  rw [← mem_flatMap_references]
  simp [ofScript]

end Script

/-- A run pauses behind actions of its script. -/
theorem Stands.mem_of_pacing {script rest : List Action} {visits : List Visit} {skipped : Nat}
    {action : Action} {outcome : Outcome}
    (stands : Stands script visits skipped (.pacing action outcome rest)) : action ∈ script := by
  cases stands with
  | pacing walked =>
    have listed : action ∈ runnable script := by
      rw [← walked.order]
      simp
    exact (mem_runnable.mp listed).1

namespace Engine

variable {σ : Type} {e : Engine σ} {ref : RunRef}

/-- A run takes a branch: the pause after an action is all that it waits for, it may go on, and the
action makes a reference in the slot that its outcome picks. -/
structure TakesBranch (e : Engine σ) (ref : RunRef) (action : Action) (reference : Reference) :
    Prop where
  source : reference.source = action.id
  named : action.link reference.slot = some reference.target
  active : e.isActive ref = true
  paused : ∃ r outcome rest, e.run? ref = some r ∧ r.stage = .pacing action outcome rest ∧
    outcome.slot = reference.slot

/-- The action that a run dispatches as its pause is over. -/
def dispatched? (e : Engine σ) (ref : RunRef) : Option Action :=
  (e.deed? (.told ref .rested)).bind fun (_, deed) => deed.played?

/-- A branch that is taken leads to the first action of the script that goes by what is named, if
there is one. Else the run walks on, and dispatches nothing at once. -/
theorem TakesBranch.dispatched?_eq {action : Action} {reference : Reference}
    (takes : e.TakesBranch ref action reference) {r : Run} (known : e.run? ref = some r) :
    e.dispatched? ref = findAction? r.script reference.target := by
  obtain ⟨_, outcome, rest, sameRun, standing, slot⟩ := takes.paused
  obtain rfl := Option.some.inj (known.symm.trans sameRun)
  have named : action.branchAfter outcome = some reference.target := by
    rw [action.branchAfter_eq_link, slot, takes.named]
  have found : Run.target? r.script action outcome = findAction? r.script reference.target := by
    rw [Run.target?, named, Option.bind_some]
  have permitted : e.permits (.told ref .rested) = true := by
    simp [permits, known, Run.awaits, standing]
  obtain ⟨_, next, sameRun, knownNext, moves⟩ := moves_of_permits permitted
  obtain rfl := Option.some.inj (known.symm.trans sameRun)
  have done : e.dispatched? ref = next.played? := by
    rw [dispatched?, deed?, knownNext, Option.bind_some, ← next.bind_deed?]
    cases next.deed? <;> rfl
  rw [done, ← found]
  cases moves with
  | turnAside pacing _ target =>
    rw [standing] at pacing
    obtain ⟨rfl, rfl, rfl⟩ := Stage.pacing.inj pacing
    exact target.symm
  | goOn pacing straight =>
    rw [standing] at pacing
    obtain ⟨rfl, rfl, rfl⟩ := Stage.pacing.inj pacing
    rw [straight takes.active]
    rcases r.walk_cases (e.isActive ref) rest with ⟨_, _, _, _, walked⟩ | ⟨_, walked⟩
    · rw [walked]
      rfl
    · rw [walked]
      cases stopped : r.stopped <;> simp [Run.close, Run.played?, stopped]
  | comeBack settling =>
    rw [standing] at settling
    cases settling

/-- A moment of a run of a queue: the run was given the actions of the queue, sorted or not, on an
engine that was free then, and some things have happened since. -/
inductive MomentOf (queue : List Action) : Engine σ → RunRef → Prop where
  | since {e : Engine σ} {subject : σ} {script : List Action} {history : List (Happening σ)}
      (reached : e.Reached) (free : e.executing = false) (same : script.Perm queue)
      (allowed : (e.effect (.arrived subject script)).allows history = true) :
      MomentOf queue ((e.effect (.arrived subject script)).after history) e.entries.length

variable {queue : List Action} {action other : Action} {reference : Reference}

/-- At every moment of a run its script is the queue, and the actions behind which it pauses are
actions of the queue. -/
theorem MomentOf.run (moment : MomentOf queue e ref) :
    ∃ r, e.run? ref = some r ∧ r.script.Perm queue ∧
      ∀ action outcome rest, r.stage = .pacing action outcome rest → action ∈ queue := by
  obtain ⟨reached, free, same, allowed⟩ := moment
  obtain ⟨r, known, tallied⟩ := tallied_after reached free allowed
  obtain ⟨_, sameRun, scripted, _⟩ := arrived_after free allowed
  obtain rfl := Option.some.inj (known.symm.trans sameRun)
  refine ⟨r, known, scripted ▸ same, fun action outcome rest standing => ?_⟩
  have listed : action ∈ r.script := (standing ▸ tallied.stands).mem_of_pacing
  exact (scripted ▸ same).mem_iff.mp listed

/-- A branch is taken for a reference that an action of the queue makes. -/
theorem TakesBranch.mem (takes : e.TakesBranch ref action reference)
    (moment : MomentOf queue e ref) : action ∈ queue := by
  obtain ⟨r, known, _, among⟩ := moment.run
  obtain ⟨_, outcome, rest, sameRun, standing, _⟩ := takes.paused
  obtain rfl := Option.some.inj (known.symm.trans sameRun)
  exact among action outcome rest standing

/-- A branch that is taken finds no action exactly if its reference is reported as dangling. -/
theorem TakesBranch.dangling_iff (takes : e.TakesBranch ref action reference)
    (moment : MomentOf queue e ref) :
    e.dispatched? ref = none ↔ reference ∈ (Report.ofScript queue).dangling := by
  obtain ⟨r, known, same, _⟩ := moment.run
  rw [takes.dispatched?_eq known, findAction?_eq_none_iff, (same.map _).mem_iff,
    Report.mem_dangling]
  exact ⟨fun lost => ⟨⟨action, takes.mem moment, takes.source.symm, takes.named⟩, lost⟩, And.right⟩

/-- What a branch dispatches goes by what is named. -/
theorem TakesBranch.dispatched (takes : e.TakesBranch ref action reference)
    (moment : MomentOf queue e ref) (plays : e.dispatched? ref = some other) :
    other ∈ queue ∧ other.id = reference.target := by
  obtain ⟨r, known, same, _⟩ := moment.run
  rw [takes.dispatched?_eq known] at plays
  obtain ⟨member, named⟩ := findAction?_eq_some plays
  exact ⟨same.mem_iff.mp member, named⟩

/-- An action runs as a branch of another one at some moment of some run of a queue. -/
def RunsAsBranch (σ : Type) (queue : List Action) (action other : Action) : Prop :=
  ∃ (e : Engine σ) (ref : RunRef) (reference : Reference), MomentOf queue e ref ∧
    e.TakesBranch ref action reference ∧ e.dispatched? ref = some other

/-- What runs as a branch is what the graph of the branches says. -/
theorem RunsAsBranch.branches (runs : RunsAsBranch σ queue action other) :
    Branches queue action.id other.id := by
  obtain ⟨e, ref, reference, moment, takes, plays⟩ := runs
  obtain ⟨_, named⟩ := takes.dispatched moment plays
  exact ⟨action, takes.mem moment, rfl, reference.slot, named ▸ takes.named⟩

/-- Where nothing is reported, a branch that is taken dispatches the one action that goes by its
target, and this is not the action that it is taken from. -/
theorem TakesBranch.dispatched_of_ok (takes : e.TakesBranch ref action reference)
    (moment : MomentOf queue e ref) (ok : (Report.ofScript queue).ok = true) :
    ∃ target, e.dispatched? ref = some target ∧
      queue.filter (·.id == reference.target) = [target] ∧ target.id ≠ action.id := by
  obtain ⟨distinct, leads, _⟩ := Report.ok_iff.mp ok
  obtain ⟨aim, inQueue, there, away⟩ :=
    leads action (takes.mem moment) reference.slot reference.target takes.named
  cases plays : e.dispatched? ref with
  | none =>
    obtain ⟨_, lost⟩ := Report.mem_dangling.mp ((takes.dangling_iff moment).mp plays)
    exact absurd (List.mem_map.mpr ⟨aim, inQueue, there⟩) lost
  | some target =>
    obtain ⟨member, named⟩ := takes.dispatched moment plays
    refine ⟨target, rfl, named ▸ filter_id_of_nodup distinct member, fun again => ?_⟩
    exact away (by rw [there, ← named, again])

/-- A report foretells the branches of every run of its queue, whatever outcomes come and whatever
else happens to the engine. A branch that is taken finds no action exactly if its reference is
reported as dangling. If nothing is reported, then every branch that is taken dispatches the one
action that goes by its target, which is not the action that it is taken from, so none is skipped
for want of an action; and no two actions run as branches of each other, be it in one run of the
queue or in two. -/
theorem report_foretells_branches (σ : Type) (queue : List Action) :
    (∀ (e : Engine σ) ref action reference, MomentOf queue e ref →
      e.TakesBranch ref action reference →
      (e.dispatched? ref = none ↔ reference ∈ (Report.ofScript queue).dangling)) ∧
    ((Report.ofScript queue).ok = true →
      (∀ (e : Engine σ) ref action reference, MomentOf queue e ref →
        e.TakesBranch ref action reference →
        ∃ target, e.dispatched? ref = some target ∧
          queue.filter (·.id == reference.target) = [target] ∧ target.id ≠ action.id) ∧
      ∀ one another, RunsAsBranch σ queue one another → ¬RunsAsBranch σ queue another one) := by
  refine ⟨fun e ref action reference moment takes => takes.dangling_iff moment, fun ok =>
    ⟨fun e ref action reference moment takes => takes.dispatched_of_ok moment ok, ?_⟩⟩
  intro one another forth back
  obtain ⟨_, _, acyclic⟩ := Report.ok_iff.mp ok
  exact acyclic one.id (.tail (.single forth.branches) back.branches)

/-- The advance has succeeded, and its pause is not over yet. -/
def advanced : Engine String :=
  (({} : Engine String).effect (.arrived "hero" [strike, advance])).after
    [.told 0 (.judged advance default .noChecker), .told 0 (.played advance { success := true })]

theorem momentOf_advanced : MomentOf [advance, strike] advanced 0 :=
  .since (e := {}) ⟨[], rfl, rfl⟩ rfl (.swap _ _ _) (by cbv)

theorem takesBranch_advanced :
    advanced.TakesBranch 0 advance ⟨"advance", .onSuccess, "strike"⟩ where
  source := rfl
  named := rfl
  active := by cbv
  paused := by
    have paused : (advanced.run? 0).map (·.stage) =
        some (.pacing advance { success := true } [strike]) := by cbv
    obtain ⟨r, known, standing⟩ := Option.map_eq_some_iff.mp paused
    exact ⟨r, _, _, known, standing, rfl⟩

/-- Nothing is reported of the advance and the strike, and the one leads to the other. -/
theorem report_foretells_branches_advanced :
    (Report.ofScript [advance, strike]).ok = true ∧
      ⟨"advance", .onSuccess, "strike"⟩ ∉ (Report.ofScript [advance, strike]).dangling ∧
      advanced.dispatched? 0 = some strike := by
  have ok : (Report.ofScript [advance, strike]).ok = true := by cbv
  obtain ⟨foretold, fine⟩ := report_foretells_branches String [advance, strike]
  obtain ⟨target, plays, only, _⟩ :=
    (fine ok).1 advanced 0 advance _ momentOf_advanced takesBranch_advanced
  obtain rfl : target = strike := by
    have named : [advance, strike].filter (·.id == "strike") = [strike] := by decide
    exact (List.cons.inj (only.symm.trans named)).1
  refine ⟨ok, fun lost => ?_, plays⟩
  have none :=
    (foretold advanced 0 advance _ momentOf_advanced takesBranch_advanced).mpr lost
  rw [plays] at none
  cases none

end Engine
end TurnScript
