import Mathlib.Logic.Function.Basic
import TurnScript.Proofs.Script.Records
import TurnScript.Store.Queue

/-!
# What an archive holds

Behind the rows of an archive stands a shelf for each subject: a queue, or none. The rows hold the
queues when every one of them is the row that its queue is stored as and reads back as. Loading
then gives the queue of the subject and changes nothing, and saving replaces it or fails; the text
of the rows plays no further part.
-/

namespace TurnScript

/-- An action whose record is read as the action. -/
structure Action.IsFaithful (a : Action) : Prop where
  valid : a.IsValid
  stored : a.stored = a

/-- An action that is kept as it is: its record can be written and is read as the action. -/
structure Action.IsKept (a : Action) : Prop extends a.IsFaithful where
  writable : a.isWritable = true

/-- What is stored of an action that can be written is kept as it is. -/
theorem Action.isKept_stored {a : Action} (valid : a.IsValid) (writable : a.isWritable = true) :
    a.stored.IsKept where
  valid := valid.stored
  stored := stored_stored a
  writable := (isWritable_stored a).trans writable

namespace Action

variable {actions : List Action}

/-- Actions that are read back are stored as they are. -/
theorem map_stored (faithful : ∀ a ∈ actions, a.IsFaithful) : actions.map stored = actions :=
  (List.map_congr_left fun a member => (faithful a member).stored).trans (List.map_id _)

/-- The records of actions that are read back are read as the actions, one by one. -/
theorem readUntilFault_of_isFaithful (supply : IdSupply)
    (faithful : ∀ a ∈ actions, a.IsFaithful) :
    readUntilFault supply (actions.map toRecord) = (.ok actions, supply) := by
  rw [readUntilFault_toRecord supply fun a member => (faithful a member).valid,
    map_stored faithful]

end Action

namespace Archive

/-! ## The text of actions -/

/-- The text of actions that can be written is read as their records. -/
theorem read_actionsText {actions : List Action} (valid : ∀ a ∈ actions, a.IsValid)
    (writable : ∀ a ∈ actions, a.isWritable = true) :
    Json.read (actionsText actions) = .ok (.arr (actions.map Action.toRecord)) := by
  have sound : (Json.arr (actions.map Action.toRecord)).IsSound := by
    refine Json.isSound_arr.mpr fun record member => ?_
    obtain ⟨a, inActions, rfl⟩ := List.mem_map.mp member
    exact Action.isSound_toRecord (valid a inActions) (writable a inActions)
  exact Json.read_text sound.1 sound.2

/-- The text of actions that can be written is read as what is stored of them. -/
theorem readActions_actionsText (supply : IdSupply) (subject : String) {actions : List Action}
    (valid : ∀ a ∈ actions, a.IsValid) (writable : ∀ a ∈ actions, a.isWritable = true) :
    readActions supply subject (.text (actionsText actions)) =
      (.ok (actions.map Action.stored), supply) := by
  simp only [readActions, read_actionsText valid writable]
  cases actions with
  | nil => rfl
  | cons a rest =>
    simp only [Json.isTruthy, List.map_cons, List.isEmpty_cons, Bool.not_false, Bool.not_true,
      Bool.false_eq_true, if_false, Action.readAll]
    rw [← List.map_cons, Action.readList_toRecord supply 0 valid]
    rfl

end Archive

/-! ## Shelves -/

/-- The queue of each subject, if it has one. -/
abbrev Shelves := String → Option Envelope

/-- Every action of a stored queue is kept as it is. -/
def Envelope.IsKept (e : Envelope) : Prop :=
  ∀ a ∈ e.actions, a.IsKept

/-- The queue as it is stored. -/
def Envelope.stored (e : Envelope) : Envelope :=
  { e with actions := e.actions.map Action.stored }

namespace Archive

theorem rowOf_stored (e : Envelope) : rowOf e.stored = rowOf e := by
  have text : actionsText (e.actions.map Action.stored) = actionsText e.actions := by
    simp [actionsText, Function.comp_def]
  rw [rowOf, Envelope.stored, text]
  rfl

/-- The rows of an archive hold the queues on some shelves. -/
structure Holds (a : Archive) (shelves : Shelves) : Prop where
  table : a.rows.isSome
  row : ∀ subject, a.row? subject = (shelves subject).map rowOf
  kept : ∀ subject, ∀ e ∈ shelves subject, e.IsKept

variable {a : Archive} {shelves : Shelves}

/-- An empty table holds nothing. -/
theorem holds_empty (empty : a.rows = some []) : a.Holds fun _ => none where
  table := by simp [empty]
  row subject := by simp [row?, empty, Ordered.get?]
  kept _ _ none := by cases none

/-- What an archive holds depends on its rows alone. -/
theorem Holds.congr {b : Archive} (holds : a.Holds shelves) (same : b.rows = a.rows) :
    b.Holds shelves where
  table := same ▸ holds.table
  row subject := by simpa [row?, same] using holds.row subject
  kept := holds.kept

/-- Loading gives what is on the shelf. -/
theorem Holds.load (holds : a.Holds shelves) (subject : String) :
    a.load subject = (.ok (shelves subject), a) := by
  obtain ⟨rows, table⟩ := Option.isSome_iff_exists.mp holds.table
  have row := holds.row subject
  simp only [row?, table, Option.bind_some] at row
  cases shelf : shelves subject with
  | none => simp only [Archive.load, table, row, shelf, Option.map_none]
  | some e =>
    have kept := holds.kept subject e shelf
    have same : e.actions.map Action.stored = e.actions :=
      Action.map_stored fun action member => (kept action member).toIsFaithful
    have truthy : (Cell.whole (if e.enabled then 1 else 0)).isTruthy = e.enabled := by
      cases e.enabled <;> rfl
    simp only [Archive.load, table, row, shelf, Option.map_some, rowOf,
      readActions_actionsText a.supply subject (fun action member => (kept action member).valid)
        (fun action member => (kept action member).writable), same, Except.map, truthy]
    rw [← table]

/-- Putting the row of a queue in place puts the queue on the shelf. -/
theorem Holds.putRow (holds : a.Holds shelves) (subject : String) {e : Envelope}
    (valid : ∀ action ∈ e.actions, action.IsValid) (writable : e.isWritable = true) :
    (a.putRow subject (rowOf e)).Holds (Function.update shelves subject (some e.stored)) := by
  obtain ⟨rows, table⟩ := Option.isSome_iff_exists.mp holds.table
  have written : (a.putRow subject (rowOf e)).rows =
      some (Ordered.put rows subject (rowOf e)) := by
    simp [Archive.putRow, table]
  refine ⟨by simp [written], fun other => ?_, fun other found onShelf => ?_⟩
  · have row := holds.row other
    simp only [row?, table, Option.bind_some] at row
    simp only [row?, written, Option.bind_some]
    by_cases same : other = subject
    · subst same
      rw [Ordered.get?_put_self, Function.update_self, Option.map_some, rowOf_stored]
    · rw [Ordered.get?_put_ne _ _ same, Function.update_of_ne same, row]
  · by_cases same : other = subject
    · subst same
      obtain rfl : e.stored = found := by simpa using onShelf
      intro action member
      obtain ⟨source, inQueue, rfl⟩ := List.mem_map.mp member
      exact Action.isKept_stored (valid source inQueue) (List.all_eq_true.mp writable source inQueue)
    · rw [Function.update_of_ne same] at onShelf
      exact holds.kept other found onShelf

end Archive
end TurnScript
