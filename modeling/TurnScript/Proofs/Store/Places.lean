import TurnScript.Proofs.Store.Arrangement

/-!
# Order numbers are places

Most operations give an action its place as its order number: they append it with the next number,
number the whole queue anew, or leave numbers alone. A subject whose queue has come of such
operations only is performed in the order in which its queue is stored, so what is appended runs
last, and the rest runs in its old order when an action is removed. Only a whole new queue, an edit
that names the order, and an arrangement that names an action twice can make the two orders differ.
-/

namespace TurnScript

/-! ## Numbering anew -/

theorem countsFrom_renumber (actions : List Action) : CountsFrom 0 (renumber actions) := by
  intro place inside
  simp [renumber]

/-- Actions whose numbers are their places are numbered anew to no effect. -/
theorem renumber_of_countsFrom {actions : List Action} (counts : CountsFrom 0 actions) :
    renumber actions = actions := by
  apply List.ext_getElem
  · simp [renumber]
  · intro place _ inside
    have number : actions[place].order = place := by simpa using counts place inside
    simp [renumber, ← number]

/-! ## Edits that do not name the order -/

/-- What no update names is what it was. -/
theorem get?_updated {updates fields : Fields} {name : String}
    (unnamed : name ∉ updates.map Prod.fst) :
    Json.get? (updates.foldl (fun fields (name, value) => Json.put fields name value) fields) name =
      Json.get? fields name := by
  induction updates generalizing fields with
  | nil => rfl
  | cons update rest inductionHypothesis =>
    simp only [List.map_cons, List.mem_cons, not_or] at unnamed
    obtain ⟨other, later⟩ := unnamed
    rw [List.foldl_cons, inductionHypothesis later]
    exact Ordered.get?_put_ne _ _ other

/-- An edit that does not name the order keeps it. -/
theorem order_of_edit {supply after : IdSupply} {action edited : Action} {updates : Fields}
    (unnamed : "order" ∉ updates.map Prod.fst)
    (edit : Archive.editAction supply action updates = (.ok edited, after)) :
    edited.order = action.order := by
  obtain ⟨_, fields, same, read⟩ := Action.of_read_eq_ok edit
  obtain rfl := Json.obj.inj same
  have order := (Action.readFields_eq_ok.mp read).order
  have old : Json.get? action.parts "order" = some (.int action.order) := rfl
  simp only [Record.partOr, Record.part, Record.firstNamed, List.findSome?_cons,
    get?_updated unnamed, old, Option.map_some, Record.readWhole, Record.Checked.under] at order
  exact (Record.Checked.ok.inj order).symm

namespace StoreOp

/-! ## Operations that keep numbers in place -/

/-- Whether an operation leaves places as order numbers: it is no whole new queue, does not edit the
order, and names no id twice. -/
def KeepsPlaces : StoreOp → Prop
  | replace _ => False
  | edit _ updates => "order" ∉ updates.map Prod.fst
  | reorder ids => ids.Nodup
  | add _ | remove _ | duplicate _ | clear | enable _ | adopt _ _ => True

/-- What holds of the actions on a shelf and of those that are written holds of those that are left,
whether they can be written or not. -/
theorem left_of_writing {P : List Action → Prop} {locked : Bool} {subject : String}
    {shelf : Option Envelope} {e : Envelope} {answer : StoreAnswer} {supply : IdSupply}
    (before : P (actionsOn shelf)) (written : P e.actions) :
    P (actionsOn ((StoreEffect.writing locked subject e answer supply).written.or shelf)) := by
  unfold StoreEffect.writing
  split
  · exact before
  split
  · exact before
  · exact written

/-- Operations that keep places leave actions whose order numbers are their places. -/
theorem countsFrom_left {op : StoreOp} (keeps : op.KeepsPlaces) {locked : Bool} {subject : String}
    {shelf : Option Envelope} {supply : IdSupply} (counts : CountsFrom 0 (actionsOn shelf)) :
    CountsFrom 0 (actionsOn ((op.effect locked subject shelf supply).written.or shelf)) := by
  cases op with
  | replace _ => exact keeps.elim
  | add action => exact left_of_writing counts (countsFrom_behind counts (countsFrom_singleton rfl))
  | remove id =>
    simp only [effect]
    split
    · exact counts
    · exact left_of_writing counts (countsFrom_renumber _)
  | edit id updates =>
    simp only [effect]
    split
    · exact counts
    split
    · exact counts
    split
    · exact counts
    · next place found _ edited _ edit =>
      have inside : place < (actionsOn shelf).length :=
        (List.findIdx?_eq_some_iff_getElem.mp found).1
      have number := order_of_edit keeps edit
      rw [List.getD_eq_getElem?_getD, List.getElem?_eq_getElem inside, Option.getD_some,
        counts place inside] at number
      -- The number is that of the place because the edit has kept it.
      exact left_of_writing counts (counts.set number)
  | reorder ids => exact left_of_writing counts (countsFrom_arrange _ (keeps.filter _))
  | duplicate id =>
    simp only [effect]
    split
    · exact counts
    · exact left_of_writing counts (countsFrom_behind counts (countsFrom_singleton rfl))
  | clear => exact left_of_writing counts (countsFrom_nil 0)
  | enable enabled =>
    refine left_of_writing counts ?_
    cases shelf with
    | none => exact countsFrom_nil 0
    | some e => exact counts
  | adopt text append =>
    simp only [effect]
    split
    · exact counts
    split
    · exact counts
    · next _ _ _ _ read after _ =>
      have adopted start := (Archive.areAdopted_adopt (after.length_freshFor read)
        (after.nodup_freshFor read) start).countsFrom
      cases append with
      | false => exact left_of_writing counts (adopted 0)
      | true => exact left_of_writing counts (countsFrom_behind counts (adopted _))

/-- A removal that goes well leaves the other actions, numbered anew. -/
theorem left_of_remove {id : String} {locked : Bool} {subject : String} {shelf : Option Envelope}
    {supply : IdSupply} {answer : StoreAnswer} (counts : CountsFrom 0 (actionsOn shelf))
    (ok : ((remove id).effect locked subject shelf supply).answer = .ok answer) :
    actionsOn (((remove id).effect locked subject shelf supply).written.or shelf) =
      renumber ((actionsOn shelf).filter (·.id != id)) := by
  simp only [effect] at ok ⊢
  split at ok
  · next unknown =>
    have all : (actionsOn shelf).filter (·.id != id) = actionsOn shelf :=
      List.filter_eq_self.mpr (List.length_filter_eq_length_iff.mp unknown)
    rw [if_pos unknown, all, renumber_of_countsFrom counts]
    rfl
  · next known =>
    rw [if_neg known, (Archive.of_writing_eq_ok ok).2]
    rfl

end StoreOp

namespace Archive

variable {a : Archive} {shelves : Shelves} {subject : String}

/-! ## Histories -/

/-- A step that keeps places on the shelf of a subject, or is made elsewhere, leaves order numbers
that are places there. -/
theorem Holds.take_counts (holds : a.Holds shelves)
    (counts : CountsFrom 0 (actionsOn (shelves subject))) {step : StoreStep}
    (valid : step.op.IsValid) (keeps : step.subject = subject → step.op.KeepsPlaces) :
    ∃ later, (a.take step).2.Holds later ∧ CountsFrom 0 (actionsOn (later subject)) := by
  refine ⟨_, holds.take_valid valid, ?_⟩
  by_cases here : step.subject = subject
  · rw [← here] at counts ⊢
    rw [holds.actionsOn_left]
    exact countsFrom_map_stored (StoreOp.countsFrom_left (keeps here) counts)
  · rwa [Shelves.left_other _ (Ne.symm here)]

/-- A history of steps that keep places on the shelf of a subject leaves order numbers that are
places there. -/
theorem Holds.exists_takeAll_counts (holds : a.Holds shelves)
    (counts : CountsFrom 0 (actionsOn (shelves subject))) {steps : List StoreStep}
    (valid : ∀ step ∈ steps, step.op.IsValid)
    (keeps : ∀ step ∈ steps, step.subject = subject → step.op.KeepsPlaces) :
    ∃ later, (a.takeAll steps).2.Holds later ∧ CountsFrom 0 (actionsOn (later subject)) := by
  induction steps generalizing a shelves with
  | nil => exact ⟨shelves, holds, counts⟩
  | cons step rest inductionHypothesis =>
    obtain ⟨firstValid, restValid⟩ := List.forall_mem_cons.mp valid
    obtain ⟨firstKeeps, restKeeps⟩ := List.forall_mem_cons.mp keeps
    obtain ⟨_, held, counting⟩ := holds.take_counts counts firstValid firstKeeps
    exact inductionHypothesis held counting restValid restKeeps

/-- A subject without a row has no actions. -/
theorem Holds.actionsOn_absent (holds : a.Holds shelves) (absent : a.row? subject = none) :
    actionsOn (shelves subject) = [] := by
  have isNone := holds.isSome_row? subject
  rw [absent, Option.isSome_none, eq_comm, Option.isSome_eq_false_iff, Option.isNone_iff_eq_none]
    at isNone
  rw [isNone]
  rfl

/-- A removal that goes well leaves the other actions, numbered anew. -/
theorem Holds.take_remove (holds : a.Holds shelves)
    (counts : CountsFrom 0 (actionsOn (shelves subject))) {locked : Bool} {id : String}
    {answer : StoreAnswer} (ok : (a.take ⟨subject, .remove id, locked⟩).1 = .ok answer) :
    ∃ later, (a.take ⟨subject, .remove id, locked⟩).2.Holds later ∧
      actionsOn (later subject) = renumber ((actionsOn (shelves subject)).filter (·.id != id)) := by
  rw [holds.take_eq] at ok
  have rest : ∀ action ∈ (actionsOn (shelves subject)).filter (·.id != id), action.IsFaithful :=
    fun action member => holds.isFaithful subject action (List.mem_filter.mp member).1
  have valid : (StoreStep.mk subject (.remove id) locked).op.IsValid := trivial
  refine ⟨_, holds.take_valid valid, ?_⟩
  rw [holds.actionsOn_left, Shelves.effect, StoreOp.left_of_remove counts ok,
    Action.map_stored (forall_renumber restsOnContent_isFaithful rest)]

/-! ## The order of a queue is its execution order -/

/-- After every history with valid actions that leaves a subject without a queue, and a history in
which only operations that keep places are made on that subject, well or in vain, its order numbers
are the places in its queue, and its queue is performed as it is stored. What is added, copied or
imported behind others next then runs last, behind the others as they are; and when an action is
removed, the others run in their old order, numbered anew. -/
theorem orders_are_places {a : Archive} (empty : a.rows = some []) {early late : List StoreStep}
    (valid : ∀ step ∈ early ++ late, step.op.IsValid) {subject : String}
    (absent : (a.takeAll early).2.row? subject = none)
    (keeps : ∀ step ∈ late, step.subject = subject → step.op.KeepsPlaces) :
    let final := ((a.takeAll early).2.takeAll late).2
    ∃ stored, final.queue subject = (.ok stored, final) ∧ CountsFrom 0 stored ∧
      final.sortedQueue subject = final.queue subject ∧
      ∀ (op : StoreOp) (locked : Bool) (answer : StoreAnswer), op.IsValid →
        (final.take ⟨subject, op, locked⟩).1 = .ok answer →
        let later := (final.take ⟨subject, op, locked⟩).2
        (op.isAppending = true → op.Appends stored answer.actions ∧
            later.sortedQueue subject =
              (.ok (stored ++ answer.actions.map Action.stored), later)) ∧
          ∀ id, op = .remove id → later.sortedQueue subject =
            (.ok (renumber (stored.filter (·.id != id))), later) := by
  intro final
  obtain ⟨earlyValid, lateValid⟩ := List.forall_mem_append.mp valid
  obtain ⟨before, heldBefore⟩ := (holds_empty empty).exists_takeAll earlyValid
  have none : CountsFrom 0 (actionsOn (before subject)) := by
    rw [heldBefore.actionsOn_absent absent]
    exact countsFrom_nil 0
  obtain ⟨shelves, holds, counts⟩ := heldBefore.exists_takeAll_counts none lateValid keeps
  refine ⟨_, holds.queue subject, counts, ?_, ?_⟩
  · rw [holds.sortedQueue, holds.queue, counts.sortedByOrder_eq]
  · intro op locked answer opValid ok later
    constructor
    · intro appending
      obtain ⟨appends, shelvesLater, holdsLater, left⟩ := holds.take_appends opValid appending ok
      have counting := countsFrom_behind counts (countsFrom_map_stored appends.countsFrom)
      refine ⟨appends, ?_⟩
      rw [holdsLater.sortedQueue, left, counting.sortedByOrder_eq]
    · rintro id rfl
      obtain ⟨shelvesLater, holdsLater, left⟩ := holds.take_remove counts ok
      rw [holdsLater.sortedQueue, left, (countsFrom_renumber _).sortedByOrder_eq]

/-- Two actions are added for the hero, arranged anew and edited, and the queue is disabled and
cannot be cleared; meanwhile another subject gets a queue. -/
def rearming : List StoreStep :=
  [⟨"hero", .add axe, false⟩, ⟨"hero", .add bow, false⟩, ⟨"rogue", .replace [bow], false⟩,
    ⟨"hero", .reorder ["bow", "axe"], false⟩,
    ⟨"hero", .edit "axe" [("name", .str "Hatchet")], false⟩, ⟨"hero", .enable false, false⟩,
    ⟨"hero", .clear, true⟩]

theorem orders_are_places_rearming :
    let final := (({} : Archive).takeAll rearming).2
    let later := (final.take ⟨"hero", .remove "bow", false⟩).2
    final.sortedQueue "hero" =
        (.ok [{ bow with order := 0 }, { axe with order := 1, name := "Hatchet" }], final) ∧
      later.sortedQueue "hero" = (.ok [{ axe with order := 0, name := "Hatchet" }], later) := by
  intro final later
  have arms : bow.IsValid ∧ axe.IsValid :=
    ⟨⟨rfl, rfl, by decide, trivial⟩, ⟨rfl, rfl, by decide, trivial⟩⟩
  have finite : bow.IsFinite ∧ axe.IsFinite := ⟨trivial, trivial⟩
  have clean : ∀ step ∈ rearming, step.op.IsClean := by
    simp [rearming, StoreOp.IsClean, arms, finite]
  have valid : ∀ step ∈ [] ++ rearming, step.op.IsValid := by
    simp [rearming, StoreOp.IsValid, arms]
  have keeps : ∀ step ∈ rearming, step.subject = "hero" → step.op.KeepsPlaces := by
    simp [rearming, StoreOp.KeepsPlaces]
  have absent : (({} : Archive).takeAll []).2.row? "hero" = none := rfl
  obtain ⟨stored, queue, -, inOrder, next⟩ := orders_are_places rfl valid absent keeps
  have empty : ({} : Archive).Holds fun _ => none := holds_empty rfl
  obtain ⟨-, holds⟩ := empty.takeAll clean
  obtain rfl : stored = [{ bow with order := 0 }, { axe with order := 1, name := "Hatchet" }] :=
    Except.ok.inj (congrArg Prod.fst (queue.symm.trans (holds.queue "hero")))
  have removed : (final.take ⟨"hero", .remove "bow", false⟩).1 = .ok (.flagged true) := by
    rw [holds.take_eq]
    rfl
  exact ⟨inOrder.trans queue, (next (.remove "bow") false _ trivial removed).2 "bow" rfl⟩

end Archive
end TurnScript
