import TurnScript.Script.Order
import TurnScript.Store.Archive

/-!
# Queues of actions

Every operation loads the queue of its subject, edits the list, and stores it again. The
list is kept as it is; only its sorted view is in execution order. Storing a queue keeps
whether it is enabled, and a new queue is enabled.
-/

namespace TurnScript

/-- Give each action its place as its order. -/
def renumber (actions : List Action) : List Action :=
  actions.mapIdx fun place action => { action with order := place }

/-- Each action stands at the place that is its order. -/
theorem order_renumber (actions : List Action) :
    (renumber actions).map (·.order) = (List.range actions.length).map Int.ofNat := by
  apply List.ext_getElem <;> simp [renumber]

/-- Put actions into the order in which ids are named. Ids that are not known are passed over.
An action that is named again stands at both places, and both carry the later place as their
order. -/
def arrange (actions : List Action) (ids : List String) : List Action :=
  let named := ids.filterMap fun id => actions.reverse.find? (·.id == id)
  named.map fun action =>
    let last := (named.length - 1) - named.reverse.findIdx (·.id == action.id)
    { action with order := last }

namespace Archive

/-- The actions of a subject as they are stored. -/
def queue (a : Archive) (subject : String) : Except StoreError (List Action) × Archive :=
  match a.load subject with
  | (.error error, a) => (.error error, a)
  | (.ok none, a) => (.ok [], a)
  | (.ok (some envelope), a) => (.ok envelope.actions, a)

/-- Replace the queue of a subject. -/
def setQueue (a : Archive) (subject : String) (actions : List Action) :
    Except StoreError Unit × Archive :=
  match a.load subject with
  | (.error error, a) => (.error error, a)
  | (.ok current, a) =>
    a.save subject { enabled := (current.map (·.enabled)).getD true, actions }

/-- Replace a queue, and answer with a value if that went well. -/
def setQueueThen {α : Type} (a : Archive) (subject : String) (actions : List Action) (answer : α) :
    Except StoreError α × Archive :=
  let (outcome, a) := a.setQueue subject actions
  (outcome.map fun _ => answer, a)

/-- Append an action; answers with the stored one. -/
def addAction (a : Archive) (subject : String) (action : Action) :
    Except StoreError Action × Archive :=
  match a.queue subject with
  | (.error error, a) => (.error error, a)
  | (.ok actions, a) =>
    let added := { action with order := actions.length }
    a.setQueueThen subject (actions ++ [added]) added

/-- Remove the actions with an id; tells whether there was one. -/
def removeAction (a : Archive) (subject id : String) : Except StoreError Bool × Archive :=
  match a.queue subject with
  | (.error error, a) => (.error error, a)
  | (.ok actions, a) =>
    let kept := actions.filter (·.id != id)
    if kept.length = actions.length then (.ok false, a)
    else a.setQueueThen subject (renumber kept) true

/-- An action with some of its parts replaced, checked as a record is. -/
def editAction (supply : IdSupply) (action : Action) (updates : Fields) :
    Record.Checked Action × IdSupply :=
  Action.read supply (.obj (updates.foldl (fun fields (name, value) => Json.put fields name value)
    action.parts))

/-- The names that say where an edit is made. They name no part of an action. -/
def placeNames : List String := ["self", "subject_id", "action_id"]

/-- Edit the first action with an id; answers with the edited one. -/
def updateAction (a : Archive) (subject id : String) (updates : Fields) :
    Except StoreError (Option Action) × Archive :=
  match updates.find? fun (name, _) => placeNames.contains name with
  | some (name, _) => (.error (.placeName name), a)
  | none =>
  match a.queue subject with
  | (.error error, a) => (.error error, a)
  | (.ok actions, a) =>
    match actions.findIdx? (·.id == id) with
    | none => (.ok none, a)
    | some place =>
      let action := actions.getD place { id }
      match editAction a.supply action updates with
      | (.refused faults, supply) => (.error (.record faults), { a with supply })
      | (.ok edited, supply) =>
        { a with supply }.setQueueThen subject (actions.set place edited) (some edited)

/-- Rebuild the queue in a given order of ids. Actions that are not named are dropped. -/
def reorderActions (a : Archive) (subject : String) (ids : List String) :
    Except StoreError Unit × Archive :=
  match a.queue subject with
  | (.error error, a) => (.error error, a)
  | (.ok actions, a) => a.setQueue subject (arrange actions ids)

/-- Remove every action. -/
def clearQueue (a : Archive) (subject : String) : Except StoreError Unit × Archive :=
  a.setQueue subject []

/-- Append a copy of the first action with an id, under a fresh id. -/
def duplicateAction (a : Archive) (subject id : String) :
    Except StoreError (Option Action) × Archive :=
  match a.queue subject with
  | (.error error, a) => (.error error, a)
  | (.ok actions, a) =>
    match findAction? actions id with
    | none => (.ok none, a)
    | some source =>
      let (fresh, supply) := a.supply.fresh
      let copy :=
        { source with id := fresh, name := source.name ++ " (Copy)", order := actions.length }
      { a with supply }.setQueueThen subject (actions ++ [copy]) (some copy)

/-- Whether a subject has a queue that is enabled. -/
def isEnabled (a : Archive) (subject : String) : Except StoreError Bool × Archive :=
  match a.load subject with
  | (.error error, a) => (.error error, a)
  | (.ok envelope, a) => (.ok (envelope.any (·.enabled)), a)

/-- Enable or disable the queue of a subject, making an empty one if it has none. -/
def setEnabled (a : Archive) (subject : String) (enabled : Bool) :
    Except StoreError Unit × Archive :=
  match a.load subject with
  | (.error error, a) => (.error error, a)
  | (.ok envelope, a) => a.save subject { envelope.getD {} with enabled }

/-- The actions of a subject in execution order. -/
def sortedQueue (a : Archive) (subject : String) : Except StoreError (List Action) × Archive :=
  let (actions, a) := a.queue subject
  (actions.map sortedByOrder, a)

/-- The enabled actions of a subject in execution order. -/
def enabledQueue (a : Archive) (subject : String) : Except StoreError (List Action) × Archive :=
  let (actions, a) := a.sortedQueue subject
  (actions.map (·.filter (·.enabled)), a)

end Archive
end TurnScript
