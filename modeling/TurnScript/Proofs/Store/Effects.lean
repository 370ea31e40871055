import TurnScript.Proofs.Store.Shelves
import TurnScript.Store.Exchange

/-!
# Effects of operations on queues

An operation on a queue has an effect that can be told without any row: an answer, and the queue
that it leaves on the shelf of its subject, if it leaves one. The effect is computed from what was
on that shelf alone. Performing the operation on an archive has this effect and no other, through
every text that is written and read on the way.

Operations copy, reorder and renumber actions, and take some from outside. So a property that
rests on what an action does holds of everything that is written once it holds of what is taken.
-/

namespace TurnScript

/-! ## Operations -/

/-- What an operation answers. -/
inductive StoreAnswer where
  | done
  | flagged (there : Bool)
  | one (action : Option Action)
  | many (actions : List Action)
  deriving Repr, DecidableEq

/-- An operation that may write the queue of a subject. -/
inductive StoreOp where
  | replace (actions : List Action)
  | add (action : Action)
  | remove (id : String)
  | edit (id : String) (updates : Fields)
  | reorder (ids : List String)
  | duplicate (id : String)
  | clear
  | enable (enabled : Bool)
  | adopt (text : String) (append : Bool)

/-- An outcome with its value told as an answer. -/
def answering {α : Type} (tell : α → StoreAnswer) (outcome : Except StoreError α × Archive) :
    Except StoreError StoreAnswer × Archive :=
  (outcome.1.map tell, outcome.2)

/-- Perform an operation on the queue of a subject. -/
def Archive.perform (a : Archive) (subject : String) :
    StoreOp → Except StoreError StoreAnswer × Archive
  | .replace actions => answering (fun _ => .done) (a.setQueue subject actions)
  | .add action => answering (fun added => .one (some added)) (a.addAction subject action)
  | .remove id => answering .flagged (a.removeAction subject id)
  | .edit id updates => answering .one (a.updateAction subject id updates)
  | .reorder ids => answering (fun _ => .done) (a.reorderActions subject ids)
  | .duplicate id => answering .one (a.duplicateAction subject id)
  | .clear => answering (fun _ => .done) (a.clearQueue subject)
  | .enable enabled => answering (fun _ => .done) (a.setEnabled subject enabled)
  | .adopt text append => answering .many (a.importQueue subject text append)

/-! ## Effects -/

/-- What an operation comes to: its answer, the queue that it leaves if it writes one, and the
supply of fresh ids after it. -/
structure StoreEffect where
  answer : Except StoreError StoreAnswer
  written : Option Envelope
  supply : IdSupply

namespace StoreEffect

/-- An operation that ends without writing. -/
def ending (answer : Except StoreError StoreAnswer) (supply : IdSupply) : StoreEffect :=
  ⟨answer, none, supply⟩

/-- An operation that ends with writing a queue, unless the queue cannot be written or the table
cannot be written to. -/
def writing (locked : Bool) (subject : String) (e : Envelope) (answer : StoreAnswer)
    (supply : IdSupply) : StoreEffect :=
  if !e.isWritable then ending (.error .unwritable) supply
  else if locked then ending (.error (.save subject)) supply
  else ⟨.ok answer, some e, supply⟩

end StoreEffect

/-- The actions on a shelf. -/
def actionsOn (shelf : Option Envelope) : List Action :=
  (shelf.map (·.actions)).getD []

/-- Other actions in the place of those on a shelf: an old queue keeps its flag, and a new one is
enabled. -/
def refilled (shelf : Option Envelope) (actions : List Action) : Envelope :=
  { enabled := (shelf.map (·.enabled)).getD true, actions }

/-- What an operation on a shelf comes to. -/
def StoreOp.effect (locked : Bool) (subject : String) (shelf : Option Envelope)
    (supply : IdSupply) (op : StoreOp) : StoreEffect :=
  let actions := actionsOn shelf
  let write (actions : List Action) (answer : StoreAnswer) (supply : IdSupply) :=
    StoreEffect.writing locked subject (refilled shelf actions) answer supply
  match op with
  | replace actions => write actions .done supply
  | add action =>
    let added := { action with order := actions.length }
    write (actions ++ [added]) (.one (some added)) supply
  | remove id =>
    let kept := actions.filter (·.id != id)
    if kept.length = actions.length then .ending (.ok (.flagged false)) supply
    else write (renumber kept) (.flagged true) supply
  | edit id updates =>
    match updates.find? fun (name, _) => Archive.placeNames.contains name with
    | some (name, _) => .ending (.error (.placeName name)) supply
    | none => match actions.findIdx? (·.id == id) with
      | none => .ending (.ok (.one none)) supply
      | some place => match Archive.editAction supply (actions.getD place { id }) updates with
        | (.refused faults, supply) => .ending (.error (.record faults)) supply
        | (.ok edited, supply) => write (actions.set place edited) (.one (some edited)) supply
  | reorder ids => write (arrange actions ids) .done supply
  | duplicate id =>
    match findAction? actions id with
    | none => .ending (.ok (.one none)) supply
    | some source =>
      let (fresh, supply) := supply.fresh
      let copy :=
        { source with id := fresh, name := source.name ++ " (Copy)", order := actions.length }
      write (actions ++ [copy]) (.one (some copy)) supply
  | clear => write [] .done supply
  | enable enabled =>
    StoreEffect.writing locked subject { shelf.getD {} with enabled } .done supply
  | adopt text append =>
    match Archive.importedRecords text with
    | .error error => .ending (.error error) supply
    | .ok records => match Action.readUntilFault supply records with
      | (.refused faults, supply) => .ending (.error (.importRecord faults)) supply
      | (.ok read, supply) =>
        let existing := if append then actions else []
        let (ids, supply) := supply.freshFor read
        let imported := Archive.adopt read ids existing.length
        write (existing ++ imported) (.many imported) supply

/-! ## One operation -/

/-- The answer of an effect, and the archive with the queue in place that the effect writes, if
it writes one. -/
def Archive.realize (a : Archive) (subject : String) (effect : StoreEffect) :
    Except StoreError StoreAnswer × Archive :=
  (effect.answer,
    { (match effect.written with
        | none => a
        | some e => a.putRow subject (Archive.rowOf e)) with
      supply := effect.supply })

namespace Archive

variable {a : Archive} {shelves : Shelves}

/-- The actions of a subject are those on its shelf. -/
theorem Holds.queue (holds : a.Holds shelves) (subject : String) :
    a.queue subject = (.ok (actionsOn (shelves subject)), a) := by
  rw [Archive.queue, holds.load subject]
  cases shelves subject <;> rfl

/-- A subject is enabled if its queue is. -/
theorem Holds.isEnabled (holds : a.Holds shelves) (subject : String) :
    a.isEnabled subject = (.ok ((shelves subject).any (·.enabled)), a) := by
  rw [Archive.isEnabled, holds.load subject]

/-- Saving has the effect of writing. -/
theorem Holds.save (holds : a.Holds shelves) (subject : String) (e : Envelope)
    (tell : Unit → StoreAnswer) :
    answering tell (a.save subject e) =
      a.realize subject (.writing a.readOnly subject e (tell ()) a.supply) := by
  have isOpen : a.isOpen = !a.readOnly := by
    rw [Archive.isOpen, holds.table, Bool.true_and]
  unfold Archive.save StoreEffect.writing
  rw [isOpen, Bool.not_not]
  cases e.isWritable <;> cases a.readOnly <;> rfl

/-- Replacing a queue has the effect of refilling its shelf. -/
theorem Holds.setQueue (holds : a.Holds shelves) (subject : String) (actions : List Action)
    (tell : Unit → StoreAnswer) :
    answering tell (a.setQueue subject actions) =
      a.realize subject (.writing a.readOnly subject (refilled (shelves subject) actions)
        (tell ()) a.supply) := by
  rw [Archive.setQueue, holds.load subject]
  exact holds.save subject (refilled (shelves subject) actions) tell

/-- An effect sets the supply of ids, so the one before it does not matter. -/
theorem realize_supplied (a : Archive) (supply : IdSupply) (subject : String)
    (effect : StoreEffect) : { a with supply }.realize subject effect = a.realize subject effect := by
  unfold Archive.realize
  cases effect.written <;> rfl

/-- Replacing a queue once fresh ids have been taken has the effect of refilling its shelf. -/
theorem Holds.setQueueThen {α : Type} (holds : a.Holds shelves) (supply : IdSupply)
    (subject : String) (actions : List Action) (value : α) (tell : α → StoreAnswer) :
    answering tell ({ a with supply }.setQueueThen subject actions value) =
      a.realize subject (.writing a.readOnly subject (refilled (shelves subject) actions)
        (tell value) supply) := by
  have supplied : { a with supply }.Holds shelves := holds.congr rfl
  rw [← a.realize_supplied supply]
  refine Eq.trans ?_ (supplied.setQueue subject actions fun _ => tell value)
  rcases same : { a with supply }.setQueue subject actions with ⟨outcome, after⟩
  simp only [answering, Archive.setQueueThen, same]
  cases outcome <;> rfl

/-- Performing an operation has its effect and no other. -/
theorem Holds.perform (holds : a.Holds shelves) (subject : String) (op : StoreOp) :
    a.perform subject op =
      a.realize subject (op.effect a.readOnly subject (shelves subject) a.supply) := by
  cases op with
  | replace actions => exact holds.setQueue subject actions fun _ => .done
  | add action =>
    simp only [Archive.perform, addAction, holds.queue]
    exact holds.setQueueThen ..
  | remove id =>
    simp only [Archive.perform, removeAction, holds.queue, StoreOp.effect]
    split
    · rfl
    · exact holds.setQueueThen ..
  | edit id updates =>
    simp only [Archive.perform, updateAction, holds.queue, StoreOp.effect]
    cases updates.find? fun (name, _) => placeNames.contains name with
    | some _ => rfl
    | none =>
      cases (actionsOn (shelves subject)).findIdx? (·.id == id) with
      | none => rfl
      | some place =>
        rcases edit : editAction a.supply ((actionsOn (shelves subject)).getD place { id })
          updates with ⟨edited, supply⟩
        cases edited with
        | refused faults => simp only [edit]; rfl
        | ok edited =>
          simp only [edit]
          exact holds.setQueueThen ..
  | reorder ids =>
    simp only [Archive.perform, reorderActions, holds.queue]
    exact holds.setQueue ..
  | duplicate id =>
    simp only [Archive.perform, duplicateAction, holds.queue, StoreOp.effect]
    cases findAction? (actionsOn (shelves subject)) id with
    | none => rfl
    | some source => exact holds.setQueueThen ..
  | clear => exact holds.setQueue subject [] fun _ => .done
  | enable enabled =>
    simp only [Archive.perform, setEnabled, holds.load]
    exact holds.save ..
  | adopt text append =>
    simp only [Archive.perform, importQueue, StoreOp.effect]
    cases importedRecords text with
    | error _ => rfl
    | ok records =>
      rcases reading : Action.readUntilFault a.supply records with ⟨read, supply⟩
      cases read with
      | refused faults => simp only [reading]; rfl
      | ok read =>
        have supplied : { a with supply }.Holds shelves := holds.congr rfl
        cases append
        · simp only [reading]
          exact holds.setQueueThen ..
        · simp only [reading, if_true, supplied.queue subject]
          exact holds.setQueueThen ..

end Archive

/-! ## What an operation writes -/

/-- What is written is the queue at hand, and it can be written. -/
theorem of_mem_writing {locked : Bool} {subject : String} {e written : Envelope}
    {answer : StoreAnswer} {supply : IdSupply}
    (member : written ∈ (StoreEffect.writing locked subject e answer supply).written) :
    written = e ∧ e.isWritable = true := by
  unfold StoreEffect.writing at member
  split at member
  · cases member
  split at member
  · cases member
  · next writable _ => exact ⟨(Option.some.inj member).symm, by simpa using writable⟩

/-- An operation ends without writing, refills its shelf, or sets the flag on it. -/
theorem StoreOp.effect_cases (op : StoreOp) (locked : Bool) (subject : String)
    (shelf : Option Envelope) (supply : IdSupply) :
    (∃ answer after, op.effect locked subject shelf supply = .ending answer after) ∨
      (∃ actions answer after, op.effect locked subject shelf supply =
        .writing locked subject (refilled shelf actions) answer after) ∨
      ∃ enabled, op = .enable enabled ∧ op.effect locked subject shelf supply =
        .writing locked subject { shelf.getD {} with enabled } .done supply := by
  cases op with
  | replace _ | add _ | reorder _ | clear => exact .inr (.inl ⟨_, _, _, rfl⟩)
  | enable enabled => exact .inr (.inr ⟨enabled, rfl, rfl⟩)
  | remove id =>
    simp only [effect]
    split
    · exact .inl ⟨_, _, rfl⟩
    · exact .inr (.inl ⟨_, _, _, rfl⟩)
  | edit id updates =>
    simp only [effect]
    split
    · exact .inl ⟨_, _, rfl⟩
    split
    · exact .inl ⟨_, _, rfl⟩
    split
    · exact .inl ⟨_, _, rfl⟩
    · exact .inr (.inl ⟨_, _, _, rfl⟩)
  | duplicate id =>
    simp only [effect]
    split
    · exact .inl ⟨_, _, rfl⟩
    · exact .inr (.inl ⟨_, _, _, rfl⟩)
  | adopt text append =>
    simp only [effect]
    split
    · exact .inl ⟨_, _, rfl⟩
    split
    · exact .inl ⟨_, _, rfl⟩
    · exact .inr (.inl ⟨_, _, _, rfl⟩)

/-- A write that fails writes nothing. -/
theorem written_of_writing_error {locked : Bool} {subject : String} {e : Envelope}
    {answer : StoreAnswer} {supply : IdSupply} {error : StoreError}
    (failed : (StoreEffect.writing locked subject e answer supply).answer = .error error) :
    (StoreEffect.writing locked subject e answer supply).written = none := by
  unfold StoreEffect.writing at failed ⊢
  split at failed
  · rw [if_pos ‹_›]
    rfl
  split at failed
  · rw [if_neg ‹_›, if_pos ‹_›]
    rfl
  · cases failed

/-- An operation that fails writes nothing. -/
theorem StoreOp.written_of_error {op : StoreOp} {locked : Bool} {subject : String}
    {shelf : Option Envelope} {supply : IdSupply} {error : StoreError}
    (failed : (op.effect locked subject shelf supply).answer = .error error) :
    (op.effect locked subject shelf supply).written = none := by
  rcases op.effect_cases locked subject shelf supply with
    ⟨answer, after, same⟩ | ⟨actions, answer, after, same⟩ | ⟨enabled, _, same⟩
  · rw [same]
    rfl
  · rw [same] at failed ⊢
    exact written_of_writing_error failed
  · rw [same] at failed ⊢
    exact written_of_writing_error failed

/-- An operation that does not set the flag keeps the one of an old queue and enables a new
one. -/
theorem StoreOp.enabled_written {op : StoreOp} (other : ∀ enabled, op ≠ .enable enabled)
    {locked : Bool} {subject : String} {shelf : Option Envelope} {supply : IdSupply} :
    ∀ e ∈ (op.effect locked subject shelf supply).written,
      e.enabled = (shelf.map (·.enabled)).getD true := by
  intro e member
  rcases op.effect_cases locked subject shelf supply with
    ⟨answer, after, same⟩ | ⟨actions, answer, after, same⟩ | ⟨enabled, isEnable, _⟩
  · rw [same] at member
    cases member
  · rw [same] at member
    rw [(of_mem_writing member).1]
    rfl
  · exact absurd isEnable (other enabled)

/-! ## What every written action has -/

/-- A property of actions that rests on their kind, their condition and their data. -/
def RestsOnContent (P : Action → Prop) : Prop :=
  ∀ a b : Action, b.kind = a.kind → b.condition = a.condition → b.data = a.data → P a → P b

/-- The actions that an operation takes from outside have a property, and so has an edited action
that had it. -/
def StoreOp.Brings (P : Action → Prop) : StoreOp → Prop
  | replace actions => ∀ action ∈ actions, P action
  | add action => P action
  | edit _ updates => ∀ supply action edited after, P action →
      Archive.editAction supply action updates = (.ok edited, after) → P edited
  | adopt text _ => ∀ records supply actions after, Archive.importedRecords text = .ok records →
      Action.readUntilFault supply records = (.ok actions, after) → ∀ action ∈ actions, P action
  | remove _ | reorder _ | duplicate _ | clear | enable _ => True

section

variable {P : Action → Prop} (rests : RestsOnContent P) {actions : List Action}
  (all : ∀ action ∈ actions, P action)
include rests all

theorem forall_renumber : ∀ action ∈ renumber actions, P action := by
  intro action member
  obtain ⟨place, inside, rfl⟩ := List.mem_mapIdx.mp member
  exact rests actions[place] _ rfl rfl rfl (all _ (List.getElem_mem inside))

theorem forall_arrange (ids : List String) : ∀ action ∈ arrange actions ids, P action := by
  intro action member
  obtain ⟨source, named, rfl⟩ := List.mem_map.mp member
  obtain ⟨id, _, found⟩ := List.mem_filterMap.mp named
  exact rests source _ rfl rfl rfl (all source (List.mem_reverse.mp (List.mem_of_find?_eq_some found)))

theorem forall_adopt (ids : List String) (start : Nat) :
    ∀ action ∈ Archive.adopt actions ids start, P action := by
  intro action member
  obtain ⟨place, inside, rfl⟩ := List.mem_mapIdx.mp member
  have source := (List.of_mem_zip (List.getElem_mem inside)).1
  exact rests (actions.zip ids)[place].1 _ rfl rfl rfl (all _ source)

end

/-- What holds of the actions on a shelf and of those that an operation takes from outside holds of
those that it writes. -/
theorem StoreOp.forall_written {P : Action → Prop} (rests : RestsOnContent P) {op : StoreOp}
    (brings : op.Brings P) {locked : Bool} {subject : String} {shelf : Option Envelope}
    {supply : IdSupply} (onShelf : ∀ action ∈ actionsOn shelf, P action) :
    ∀ e ∈ (op.effect locked subject shelf supply).written,
      (∀ action ∈ e.actions, P action) ∧ e.isWritable = true := by
  intro e member
  have written {actions : List Action} {answer : StoreAnswer} {supply : IdSupply}
      (all : ∀ action ∈ actions, P action)
      (member : e ∈ (StoreEffect.writing locked subject (refilled shelf actions) answer
        supply).written) : (∀ action ∈ e.actions, P action) ∧ e.isWritable = true := by
    obtain ⟨rfl, writable⟩ := of_mem_writing member
    exact ⟨all, writable⟩
  have longer {more : List Action} (all : ∀ action ∈ more, P action) :
      ∀ action ∈ actionsOn shelf ++ more, P action :=
    List.forall_mem_append.mpr ⟨onShelf, all⟩
  cases op with
  | replace actions => exact written brings member
  | add action =>
    refine written (longer ?_) member
    exact List.forall_mem_singleton.mpr (rests action _ rfl rfl rfl brings)
  | remove id =>
    simp only [effect] at member
    split at member
    · cases member
    · refine written (forall_renumber rests fun action kept => ?_) member
      exact onShelf action (List.mem_of_mem_filter kept)
  | edit id updates =>
    simp only [effect] at member
    split at member
    · cases member
    split at member
    · cases member
    split at member
    · cases member
    · next place found _ edited _ edit =>
      have inside : place < (actionsOn shelf).length := (List.findIdx?_eq_some_iff_getElem.mp found).1
      have source : P ((actionsOn shelf).getD place { id }) := by
        rw [List.getD_eq_getElem?_getD, List.getElem?_eq_getElem inside]
        exact onShelf _ (List.getElem_mem inside)
      refine written (fun action member => ?_) member
      rcases List.mem_or_eq_of_mem_set member with old | rfl
      · exact onShelf action old
      · exact brings _ _ _ _ source edit
  | reorder ids => exact written (forall_arrange rests onShelf ids) member
  | duplicate id =>
    simp only [effect] at member
    split at member
    · cases member
    · next source found =>
      have inQueue := List.mem_of_find?_eq_some found
      refine written (longer ?_) member
      exact List.forall_mem_singleton.mpr (rests source _ rfl rfl rfl (onShelf source inQueue))
  | clear => exact written (fun _ none => by cases none) member
  | enable enabled =>
    obtain ⟨rfl, writable⟩ := of_mem_writing member
    cases shelf with
    | none => exact ⟨fun _ none => (by cases none), writable⟩
    | some e => exact ⟨onShelf, writable⟩
  | adopt text append =>
    simp only [effect] at member
    split at member
    · cases member
    split at member
    · cases member
    · next _ imported _ _ _ reading =>
      have read := forall_adopt rests (brings _ _ _ _ imported reading)
      refine written (List.forall_mem_append.mpr ⟨?_, read _ _⟩) member
      cases append
      · exact fun _ none => by cases none
      · exact onShelf

/-! ## Histories -/

/-- An operation in a history: on whose queue it is made, and whether the table can be written to
by then. -/
structure StoreStep where
  subject : String
  op : StoreOp
  locked : Bool := false

/-- Perform the operation of a step. -/
def Archive.take (a : Archive) (step : StoreStep) : Except StoreError StoreAnswer × Archive :=
  { a with readOnly := step.locked }.perform step.subject step.op

/-- Perform the operations of a history; answers with their answers. -/
def Archive.takeAll (a : Archive) : List StoreStep → List (Except StoreError StoreAnswer) × Archive
  | [] => ([], a)
  | step :: rest =>
    let (answer, a) := a.take step
    let (answers, a) := a.takeAll rest
    (answer :: answers, a)

end TurnScript
