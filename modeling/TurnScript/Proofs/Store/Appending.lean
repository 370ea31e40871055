import TurnScript.Proofs.Script.Ordering
import TurnScript.Proofs.Store.Adoption

/-!
# Appending to a queue

An action that is added, copied or imported behind others is stored last, and its order number is
the place that it gets. Execution goes by order numbers, and an edit or a whole new queue can give
these any value. So an appended action runs behind those that have no greater number than its place;
it runs last exactly where no number in the queue is greater than the length of the queue.
-/

namespace TurnScript

/-- The actions that an operation answers with. -/
def StoreAnswer.actions : StoreAnswer → List Action
  | one action => action.toList
  | many actions => actions
  | done | flagged _ => []

/-- The order numbers of adopted actions count on from where they are adopted. -/
theorem AreAdopted.countsFrom {read imported : List Action} {start : Nat}
    (adopted : AreAdopted read start imported) : CountsFrom start imported := by
  intro place inside
  rw [adopted.place place inside (adopted.length ▸ inside)]

theorem countsFrom_singleton {start : Nat} {action : Action} (number : action.order = start) :
    CountsFrom start [action] := by
  intro place inside
  obtain rfl : place = 0 := by simpa using inside
  exact number

namespace StoreOp

/-- Whether an operation puts actions at the end of a queue. -/
def isAppending : StoreOp → Bool
  | add _ | duplicate _ | adopt _ true => true
  | replace _ | remove _ | edit _ _ | reorder _ | clear | enable _ | adopt _ false => false

/-- What an operation puts at the end of the actions that are stored. -/
inductive Appends (stored : List Action) : StoreOp → List Action → Prop
  | added (action : Action) :
      Appends stored (.add action) [{ action with order := stored.length }]
  | copied {id : String} {source : Action} (found : findAction? stored id = some source)
      (fresh : String) :
      Appends stored (.duplicate id)
        [{ source with id := fresh, name := source.name ++ " (Copy)", order := stored.length }]
  | nothing {id : String} (unknown : findAction? stored id = none) :
      Appends stored (.duplicate id) []
  | adopted {text : String} {records : List Json} {supply after : IdSupply}
      {read imported : List Action} (inText : Archive.importedRecords text = .ok records)
      (reading : Action.readUntilFault supply records = (.ok read, after))
      (areAdopted : AreAdopted read stored.length imported) :
      Appends stored (.adopt text true) imported

/-- The order numbers of appended actions count on from the length of the queue. -/
theorem Appends.countsFrom {op : StoreOp} {stored added : List Action}
    (appends : op.Appends stored added) : CountsFrom stored.length added := by
  cases appends with
  | added _ | copied _ _ => exact countsFrom_singleton rfl
  | nothing _ => exact countsFrom_nil _
  | adopted _ _ areAdopted => exact areAdopted.countsFrom

/-- An operation that appends and goes well leaves the stored actions and, behind them, those that
it answers with. -/
theorem appends_of_effect {op : StoreOp} (appending : op.isAppending = true) {locked : Bool}
    {subject : String} {shelf : Option Envelope} {supply : IdSupply} {answer : StoreAnswer}
    (ok : (op.effect locked subject shelf supply).answer = .ok answer) :
    op.Appends (actionsOn shelf) answer.actions ∧
      actionsOn ((op.effect locked subject shelf supply).written.or shelf) =
        actionsOn shelf ++ answer.actions := by
  cases op with
  | replace _ | remove _ | edit _ _ | reorder _ | clear | enable _ => cases appending
  | add action =>
    obtain ⟨rfl, written⟩ := Archive.of_writing_eq_ok ok
    exact ⟨.added action, congrArg (fun written => actionsOn (written.or shelf)) written⟩
  | duplicate id =>
    simp only [effect] at ok ⊢
    split at ok
    · next unknown =>
      obtain rfl := Except.ok.inj ok
      exact ⟨.nothing unknown, (List.append_nil _).symm⟩
    · next source found =>
      obtain ⟨rfl, written⟩ := Archive.of_writing_eq_ok ok
      exact ⟨.copied found _, congrArg (fun written => actionsOn (written.or shelf)) written⟩
  | adopt text append =>
    cases append with
    | false => cases appending
    | true =>
      obtain ⟨records, read, after, inText, reading, rfl, written⟩ :=
        Archive.of_effect_adopt_eq_ok ok
      have areAdopted := Archive.areAdopted_adopt (after.length_freshFor read)
        (after.nodup_freshFor read) (actionsOn shelf).length
      exact ⟨.adopted inText reading areAdopted,
        congrArg (fun written => actionsOn (written.or shelf)) written⟩

end StoreOp

namespace Archive

variable {a : Archive} {shelves : Shelves}

/-- A step on an archive comes to its effect on the shelves. -/
theorem Holds.take_eq (holds : a.Holds shelves) (step : StoreStep) :
    a.take step =
      { a with readOnly := step.locked }.realize step.subject (shelves.effect a.supply step) := by
  have ready : { a with readOnly := step.locked }.Holds shelves := holds.congr rfl
  exact ready.perform step.subject step.op

/-- What is left on the shelf of a step is what is stored of the actions that its effect leaves. -/
theorem Holds.actionsOn_left (holds : a.Holds shelves) (subject : String) (effect : StoreEffect) :
    actionsOn (shelves.left subject effect.stored subject) =
      (actionsOn (effect.written.or (shelves subject))).map Action.stored := by
  rw [Shelves.left_self, StoreEffect.stored]
  cases effect.written with
  | none => exact (Action.map_stored (holds.isFaithful subject)).symm
  | some e => rfl

/-- A step that appends and goes well leaves the actions of its subject and, behind them, what is
stored of the actions that it answers with. -/
theorem Holds.take_appends (holds : a.Holds shelves) {step : StoreStep} (valid : step.op.IsValid)
    (appending : step.op.isAppending = true) {answer : StoreAnswer}
    (ok : (a.take step).1 = .ok answer) :
    step.op.Appends (actionsOn (shelves step.subject)) answer.actions ∧
      ∃ later, (a.take step).2.Holds later ∧ actionsOn (later step.subject) =
        actionsOn (shelves step.subject) ++ answer.actions.map Action.stored := by
  rw [holds.take_eq] at ok
  obtain ⟨appends, left⟩ := StoreOp.appends_of_effect appending ok
  refine ⟨appends, _, holds.take_valid valid, ?_⟩
  rw [holds.actionsOn_left, Shelves.effect, left, List.map_append,
    Action.map_stored (holds.isFaithful step.subject)]

/-- Storing changes no order number. -/
theorem countsFrom_map_stored {start : Nat} {actions : List Action}
    (counts : CountsFrom start actions) : CountsFrom start (actions.map Action.stored) := by
  intro place inside
  rw [List.getElem_map]
  exact counts place (by simpa using inside)

/-- After every history with valid actions, an operation that appends and goes well leaves the
stored actions in their execution order among each other. The actions that it appends are stored
behind them, and each has its place as its order number; it runs right behind those actions before
it in the stored list that have no greater number. So they all run last exactly where no stored
action has a number greater than the length of the queue. -/
theorem appended_run_behind_no_greater {a : Archive} (empty : a.rows = some [])
    {steps : List StoreStep} (valid : ∀ step ∈ steps, step.op.IsValid) {next : StoreStep}
    (nextValid : next.op.IsValid) (appending : next.op.isAppending = true) {answer : StoreAnswer}
    (accepted : ((a.takeAll steps).2.take next).1 = .ok answer) :
    let final := (a.takeAll steps).2
    let later := (final.take next).2
    ∃ stored sorted, final.queue next.subject = (.ok stored, final) ∧
      next.op.Appends stored answer.actions ∧
      let added := answer.actions.map Action.stored
      later.queue next.subject = (.ok (stored ++ added), later) ∧
        later.sortedQueue next.subject = (.ok sorted, later) ∧
        (sortedByOrder stored).Sublist sorted ∧
        (∀ (place : Nat) (inside : place < added.length),
          added[place].order = (stored.length + place : Nat) ∧
            sorted =
              sortedByOrder (stored.filter (·.order ≤ added[place].order) ++ added.take place) ++
                added[place] ::
                  sortedByOrder (stored.filter (added[place].order < ·.order) ++
                    added.drop (place + 1))) ∧
        (sorted = sortedByOrder stored ++ added ↔
          added = [] ∨ ∀ action ∈ stored, action.order ≤ stored.length) := by
  intro final later
  obtain ⟨shelves, holds⟩ := (holds_empty empty).exists_takeAll valid
  obtain ⟨appends, shelvesLater, holdsLater, left⟩ :=
    holds.take_appends nextValid appending accepted
  have counts := countsFrom_map_stored appends.countsFrom
  refine ⟨_, _, holds.queue next.subject, appends, ?_, holdsLater.sortedQueue next.subject, ?_⟩
  · rw [← left]
    exact holdsLater.queue next.subject
  · rw [left]
    exact ⟨sortedByOrder_sublist (List.sublist_append_left _ _),
      fun place inside => ⟨counts place inside, counts.sortedByOrder_append _ place inside⟩,
      counts.sortedByOrder_append_iff _⟩

theorem appended_run_behind_no_greater_phrase :
    let later := (armed.take ⟨"hero", .adopt (exportText none phrase) true, false⟩).2
    later.queue "hero" = (.ok ([bow, axe] ++ adoptedPhrase), later) ∧
      later.sortedQueue "hero" = (.ok ([axe, bow] ++ adoptedPhrase), later) := by
  intro later
  have accepted : ((({} : Archive).takeAll arming).2.take
      ⟨"hero", .adopt (exportText none phrase) true, false⟩).1 = .ok (.many adoptedPhrase) := by
    have imported := importQueue_phrase
    rw [armed] at imported
    rw [Archive.take, Archive.perform, answering, imported]
    rfl
  have valid : StoreOp.IsValid (.adopt (exportText none phrase) true) := trivial
  obtain ⟨stored, sorted, before, -, queued, inOrder, -, -, last⟩ :=
    appended_run_behind_no_greater rfl isValid_arming valid rfl accepted
  obtain rfl : stored = [bow, axe] :=
    Except.ok.inj (congrArg Prod.fst (before.symm.trans queue_armed))
  have behind := last.mpr (.inr (by decide))
  rw [sortedByOrder_arms] at behind
  rw [behind] at inOrder
  exact ⟨queued, inOrder⟩

/-! ## A queue with a great number -/

def finale : Action := { id := "finale", kind := .attack, order := 5, name := "Finale" }

/-- The queue of the hero is set to one action with a number of its own. -/
def finishing : List StoreStep :=
  [⟨"hero", .replace [finale], false⟩]

theorem isValid_finishing : ∀ step ∈ finishing, step.op.IsValid := by
  have valid : finale.IsValid := ⟨rfl, rfl, by decide, trivial⟩
  simpa [finishing, StoreOp.IsValid] using valid

/-- What the shelves are after that. -/
theorem holds_finished :
    (({} : Archive).takeAll finishing).2.Holds
      (Function.update (fun _ => none) "hero" (some { actions := [finale] })) := by
  have holds : ({} : Archive).Holds fun _ => none := holds_empty rfl
  exact holds.take_valid
    (isValid_finishing ⟨"hero", .replace [finale], false⟩ (by simp [finishing]))

/-- An action that is added to it runs before it. -/
theorem added_action_runs_first :
    let final := (({} : Archive).takeAll finishing).2
    let later := (final.take ⟨"hero", .add bow, false⟩).2
    final.sortedQueue "hero" = (.ok [finale], final) ∧
      (final.take ⟨"hero", .add bow, false⟩).1 = .ok (.one (some bow)) ∧
      later.sortedQueue "hero" = (.ok [bow, finale], later) := by
  intro final later
  have valid : StoreOp.IsValid (.add bow) := ⟨rfl, rfl, by decide, trivial⟩
  have accepted : (final.take ⟨"hero", .add bow, false⟩).1 = .ok (.one (some bow)) := by
    rw [holds_finished.take_eq]
    rfl
  obtain ⟨-, shelves, holds, left⟩ := holds_finished.take_appends valid rfl accepted
  have left : actionsOn (shelves "hero") = [finale, bow] := left
  have before := holds_finished.sortedQueue "hero"
  have after := holds.sortedQueue "hero"
  have alone : sortedByOrder [finale] = [finale] := by simp [sortedByOrder]
  have both : sortedByOrder [finale, bow] = [bow, finale] := by
    simp [sortedByOrder, List.mergeSort, finale, bow]
  have stored : actionsOn (some { actions := [finale] }) = [finale] := rfl
  rw [Function.update_self, stored, alone] at before
  rw [left, both] at after
  exact ⟨before, accepted, after⟩

end Archive
end TurnScript
