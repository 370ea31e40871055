import TurnScript.Proofs.Store.Refinement

/-!
# Handing a queue on

Exporting a queue writes the stored list, and importing the text gives the actions of that list
fresh ids and their places as orders. So the import runs in the order of the stored list. The queue
that was exported runs by its own order numbers, which edits can set to anything; the two agree
where sorting by them changes nothing about what stands where.
-/

namespace TurnScript

/-! ## Fresh ids -/

/-- As many fresh ids are made as there are items. -/
theorem IdSupply.length_freshFor {α : Type} (supply : IdSupply) (items : List α) :
    (supply.freshFor items).1.length = items.length := by
  induction items generalizing supply with
  | nil => rfl
  | cons item rest inductionHypothesis =>
    simp only [freshFor, List.length_cons, inductionHypothesis]

/-! ## Adopted actions -/

/-- What an action does and says, apart from its id, its order and its links. -/
def Action.content (a : Action) :
    ActionKind × Bool × String × String × Condition × Fields :=
  (a.kind, a.enabled, a.name, a.description, a.condition, a.data)

namespace Archive

variable {actions : List Action} {ids : List String}

/-- As many actions are adopted as there are ids for. -/
theorem length_adopt (enough : ids.length = actions.length) (start : Nat) :
    (adopt actions ids start).length = actions.length := by
  simp [adopt, enough]

/-- An adopted action is an old one with a new id, its place as its order and its links
renamed. -/
theorem getElem_adopt (start place : Nat) (inside : place < (adopt actions ids start).length)
    (inActions : place < actions.length) (inIds : place < ids.length) :
    (adopt actions ids start)[place] =
      { actions[place] with
        id := ids[place]
        order := (start + place : Nat)
        onSuccess := renamed ((actions.map (·.id)).zip ids) actions[place].onSuccess
        onFailure := renamed ((actions.map (·.id)).zip ids) actions[place].onFailure } := by
  simp [adopt]

/-- Adopting keeps contents in their places. -/
theorem content_adopt (enough : ids.length = actions.length) (start : Nat) :
    (adopt actions ids start).map Action.content = actions.map Action.content := by
  apply List.ext_getElem
  · simp [length_adopt enough]
  · intro place inside inActions
    simp only [List.length_map] at inside inActions
    rw [List.getElem_map, List.getElem_map,
      getElem_adopt start place inside inActions (by rw [enough]; exact inActions)]
    rfl

/-- The orders of adopted actions rise. -/
theorem pairwise_adopt (start : Nat) :
    (adopt actions ids start).Pairwise fun a b => a.order ≤ b.order := by
  rw [List.pairwise_iff_getElem]
  intro first second firstInside secondInside before
  simp only [adopt, List.getElem_mapIdx]
  omega

end Archive

/-- Sorting leaves actions whose orders do not decrease. -/
theorem sortedByOrder_of_pairwise {actions : List Action}
    (rising : actions.Pairwise fun a b => a.order ≤ b.order) : sortedByOrder actions = actions := by
  apply List.mergeSort_of_pairwise
  simpa using rising

/-! ## Exporting and importing -/

namespace Archive

variable {a : Archive} {shelves : Shelves}

/-- The actions on a shelf that is held are kept. -/
theorem Holds.isKept (holds : a.Holds shelves) (subject : String) :
    ∀ action ∈ actionsOn (shelves subject), action.IsKept := by
  cases shelf : shelves subject with
  | none => exact fun _ none => by cases none
  | some e => exact holds.kept subject e shelf

/-- The text of an exported queue. -/
def exportText (tokenName : Option String) (actions : List Action) : String :=
  Json.indentedText (Export.toRecord { tokenName, actions })

/-- A queue that is held can be exported. -/
theorem Holds.exportQueue (holds : a.Holds shelves) (subject : String)
    (tokenName : Option String) :
    a.exportQueue subject tokenName =
      (.ok (exportText tokenName (actionsOn (shelves subject))), a) := by
  have writable : Export.isWritable { tokenName, actions := actionsOn (shelves subject) } = true :=
    List.all_eq_true.mpr fun action member => (holds.isKept subject action member).writable
  rw [Archive.exportQueue, holds.queue]
  simp only [Except.bind, writable, if_true]
  rfl

/-- The records in an exported text are those of the actions that were exported. -/
theorem importedRecords_exportText (tokenName : Option String) {actions : List Action}
    (kept : ∀ action ∈ actions, action.IsKept) :
    importedRecords (exportText tokenName actions) = .ok (actions.map Action.toRecord) := by
  have records : (Json.arr (actions.map Action.toRecord)).IsSound := by
    refine Json.isSound_arr.mpr fun record member => ?_
    obtain ⟨action, inActions, rfl⟩ := List.mem_map.mp member
    exact Action.isSound_toRecord (kept action inActions).valid (kept action inActions).writable
  have sound : (Export.toRecord { tokenName, actions }).IsSound := by
    refine Json.isSound_obj.mpr ⟨by simp [Ordered.keys], ?_⟩
    simp only [List.forall_mem_cons, List.not_mem_nil, false_implies, implies_true, and_true]
    exact ⟨⟨trivial, rfl⟩, Action.isSound_ofOption _, records⟩
  rw [importedRecords, exportText, Json.read_indentedText sound.1 sound.2]
  simp [Export.toRecord, Json.get?, Ordered.get?]

/-- The least number with more digits than the limit. -/
@[irreducible]
def placeLimit : Nat := 10 ^ Text.digitLimit

theorem length_digitsOf_le_iff (place : Nat) {limit : Nat} (positive : 0 < limit) :
    (Text.digitsOf place).length ≤ limit ↔ place < 10 ^ limit :=
  Nat.length_toDigits_le_iff (by decide) positive

theorem digitLimit_pos : 0 < Text.digitLimit := by
  decide

/-- A place can be written if it has no more digits than the limit. -/
theorem isWritable_place (place : Nat) :
    Text.isWritable (place : Int) = true ↔ place < placeLimit := by
  have limit : placeLimit = 10 ^ Text.digitLimit := by
    unfold placeLimit
    rfl
  rw [Text.isWritable, decide_eq_true_eq, Int.natAbs_natCast, limit]
  exact length_digitsOf_le_iff place digitLimit_pos

theorem ten_le_placeLimit : 10 ≤ placeLimit := by
  have limit : placeLimit = 10 ^ Text.digitLimit := by
    unfold placeLimit
    rfl
  rw [limit]
  exact Nat.le_self_pow digitLimit_pos.ne' 10

/-- An action that can be written can be written with a place as its order if the place can. -/
theorem isWritable_placed {action : Action} (writable : action.isWritable = true) (place : Nat) :
    Action.isWritable { action with order := place } = true ↔ place < placeLimit := by
  simp only [Action.isWritable, Bool.and_eq_true] at writable
  simp only [Action.isWritable, writable.1, Bool.true_and, ← isWritable_place]

/-- An adopted action can be written if its place can. -/
theorem isWritable_adopted (kept : ∀ action ∈ actions, action.IsKept)
    (enough : ids.length = actions.length) {place : Nat}
    (inside : place < (adopt actions ids 0).length) :
    (adopt actions ids 0)[place].isWritable = true ↔ place < placeLimit := by
  have inActions : place < actions.length := by rwa [length_adopt enough] at inside
  have old := (kept _ (List.getElem_mem inActions)).writable
  rw [getElem_adopt 0 place inside inActions (by rw [enough]; exact inActions), Nat.zero_add]
  exact isWritable_placed old place

/-- Where each action can be written exactly if its place can, all can be written exactly if the last
place can. -/
theorem all_isWritable_iff {actions : List Action}
    (each : ∀ (place : Nat) (inside : place < actions.length),
      actions[place].isWritable = true ↔ place < placeLimit) :
    actions.all Action.isWritable = true ↔ actions.length ≤ placeLimit := by
  rw [List.all_eq_true]
  constructor
  · intro all
    by_contra long
    have inside : placeLimit < actions.length := Nat.lt_of_not_le long
    have last := (each placeLimit inside).mp (all _ (List.getElem_mem inside))
    exact absurd last (Nat.lt_irrefl _)
  · intro short action member
    obtain ⟨place, inside, rfl⟩ := List.getElem_of_mem member
    exact (each place inside).mpr (inside.trans_le short)

/-- Replacing a queue by actions that are read back, and that can be written if there is room for a
number of them: nothing if there is none or the table is locked, else they are on the shelf. -/
theorem Holds.setQueue_room {a : Archive} {shelves : Shelves} (holds : a.Holds shelves)
    (subject : String) {actions : List Action} {number : Nat}
    (faithful : ∀ action ∈ actions, action.IsFaithful)
    (room : actions.all Action.isWritable = true ↔ number ≤ placeLimit) :
    ((a.readOnly = true ∨ placeLimit < number) ∧
        ∃ error, a.setQueue subject actions = (.error error, a)) ∨
      (a.readOnly = false ∧ number ≤ placeLimit ∧
        ∃ later, a.setQueue subject actions = (.ok (), later) ∧
          later.Holds (Function.update shelves subject
            (some (refilled (shelves subject) actions)))) := by
  rcases holds.setQueue_cases subject faithful with
    ⟨unwritable, same⟩ | ⟨_, locked, same⟩ | ⟨writable, unlocked, later, same, holdsLater⟩
  · have long : placeLimit < number := by
      rw [← Nat.not_le, ← room, unwritable]
      exact Bool.false_ne_true
    exact .inl ⟨.inr long, .unwritable, same⟩
  · exact .inl ⟨.inl locked, .save subject, same⟩
  · exact .inr ⟨unlocked, room.mp writable, later, same, holdsLater⟩

/-- Adopted actions can be written if their last place can. -/
theorem isWritable_adopt (kept : ∀ action ∈ actions, action.IsKept)
    (enough : ids.length = actions.length) :
    (adopt actions ids 0).all Action.isWritable = true ↔
      actions.length ≤ placeLimit := by
  have each := all_isWritable_iff fun _ inside => isWritable_adopted kept enough inside
  rwa [length_adopt enough 0] at each

/-- The actions that come of importing an exported queue. -/
def handedOn (a : Archive) (actions : List Action) : List Action :=
  adopt actions (a.supply.freshFor actions).1 0

/-- What comes of importing an exported queue is read back. -/
theorem isFaithful_handedOn (a : Archive) {actions : List Action}
    (kept : ∀ action ∈ actions, action.IsKept) :
    ∀ action ∈ a.handedOn actions, action.IsFaithful :=
  forall_adopt restsOnContent_isFaithful (fun action member => (kept action member).toIsFaithful) _ _

/-- What importing an exported queue comes to: its actions, adopted, refill the shelf. -/
def adoption (a : Archive) (subject : String) (shelf : Option Envelope) (actions : List Action) :
    StoreEffect :=
  .writing a.readOnly subject (refilled shelf (a.handedOn actions)) (.many (a.handedOn actions))
    (a.supply.freshFor actions).2

theorem effect_adopt_exportText (a : Archive) (subject : String) (shelf : Option Envelope)
    (tokenName : Option String) {actions : List Action}
    (kept : ∀ action ∈ actions, action.IsKept) :
    (StoreOp.adopt (exportText tokenName actions) false).effect a.readOnly subject shelf a.supply =
      a.adoption subject shelf actions := by
  have read := Action.readUntilFault_of_isFaithful a.supply fun action member =>
    (kept action member).toIsFaithful
  simp only [StoreOp.effect, importedRecords_exportText tokenName kept, read]
  rfl

/-- After an import the shelf is refilled with the actions of the exported queue, adopted. -/
theorem Holds.realize_adoption (holds : a.Holds shelves) (subject : String) {actions : List Action}
    (kept : ∀ action ∈ actions, action.IsKept) :
    (a.realize subject (a.adoption subject (shelves subject) actions)).2.Holds
      (shelves.left subject (a.adoption subject (shelves subject) actions)) := by
  have faithful : ∀ e ∈ (a.adoption subject (shelves subject) actions).written,
      (∀ action ∈ e.actions, action.IsFaithful) ∧ e.isWritable = true := by
    intro e member
    obtain ⟨rfl, writable⟩ := of_mem_writing member
    exact ⟨isFaithful_handedOn a kept, writable⟩
  have holding := holds.realize subject fun e member =>
    ⟨fun action inQueue => ((faithful e member).1 action inQueue).valid, (faithful e member).2⟩
  rwa [stored_of_isFaithful fun e member => (faithful e member).1] at holding

/-- Importing an exported queue puts its actions, adopted, on the shelf. It fails only if there
are so many of them that the last place cannot be written. -/
theorem Holds.importQueue (holds : a.Holds shelves) (unlocked : a.readOnly = false)
    (subject : String) (tokenName : Option String) {actions : List Action}
    (kept : ∀ action ∈ actions, action.IsKept) {result : Except StoreError (List Action)}
    {later : Archive}
    (imported : a.importQueue subject (exportText tokenName actions) false = (result, later)) :
    (placeLimit < actions.length ∧ result = .error .unwritable) ∨
      (result = .ok (a.handedOn actions) ∧
        later.Holds (Function.update shelves subject
          (some (refilled (shelves subject) (a.handedOn actions))))) := by
  have performed := holds.perform subject (.adopt (exportText tokenName actions) false)
  rw [effect_adopt_exportText a subject (shelves subject) tokenName kept,
    Archive.perform, imported] at performed
  have holding := holds.realize_adoption subject kept
  have writable : (refilled (shelves subject) (a.handedOn actions)).isWritable = true ↔
      actions.length ≤ placeLimit := by
    rw [Envelope.isWritable, refilled, handedOn]
    exact isWritable_adopt kept (a.supply.length_freshFor actions)
  have answer := congrArg Prod.fst performed
  rw [← congrArg Prod.snd performed] at holding
  rcases Nat.lt_or_ge placeLimit actions.length with long | short
  · have unwritable : (refilled (shelves subject) (a.handedOn actions)).isWritable = false := by
      rw [← Bool.not_eq_true, writable]
      exact Nat.not_le.mpr long
    simp only [answering, Archive.realize, adoption, StoreEffect.writing, unwritable] at answer
    refine .inl ⟨long, ?_⟩
    cases result with
    | ok imported => cases answer
    | error error => exact congrArg Except.error (Except.error.inj answer)
  · simp only [answering, Archive.realize, adoption, StoreEffect.writing, writable.mpr short,
      unlocked] at answer holding
    obtain ⟨_, ok, same⟩ := Json.of_map_eq_ok answer
    exact .inr ⟨by rw [ok, StoreAnswer.many.inj same], holding⟩

/-! ## The order of an import -/

@[simp] theorem actionsOn_refilled (shelf : Option Envelope) (actions : List Action) :
    actionsOn (some (refilled shelf actions)) = actions := rfl

/-- The sorted view of an archive that holds some shelves. -/
theorem Holds.sortedQueue (holds : a.Holds shelves) (subject : String) :
    a.sortedQueue subject = (.ok (sortedByOrder (actionsOn (shelves subject))), a) := by
  rw [Archive.sortedQueue, holds.queue]
  rfl

/-- What comes of importing an exported queue is in order. -/
theorem sortedByOrder_handedOn (a : Archive) (actions : List Action) :
    sortedByOrder (a.handedOn actions) = a.handedOn actions :=
  sortedByOrder_of_pairwise (pairwise_adopt 0)

/-- After every history with valid actions a queue can be exported, and its text can be imported,
unless the queue has more actions than there are places that can be written. What is imported has,
in its sorted view, the contents of the stored list, place by place, and so those of the sorted view
of the exported queue if orders do not decrease along that list. -/
theorem hands_on_stored_order {a : Archive} (empty : a.rows = some []) {steps : List StoreStep}
    (valid : ∀ step ∈ steps, step.op.IsValid) (subject other : String)
    (tokenName : Option String) :
    let final := { (a.takeAll steps).2 with readOnly := false }
    ∃ stored text result later,
      final.queue subject = (.ok stored, final) ∧
        final.exportQueue subject tokenName = (.ok text, final) ∧
        final.importQueue other text false = (result, later) ∧
        ((placeLimit < stored.length ∧ result = .error .unwritable) ∨
          ∃ imported sorted, result = .ok imported ∧
            later.sortedQueue other = (.ok sorted, later) ∧
            sorted.map Action.content = stored.map Action.content ∧
            final.sortedQueue subject = (.ok (sortedByOrder stored), final) ∧
            ((stored.Pairwise fun a b => a.order ≤ b.order) →
              sorted.map Action.content = (sortedByOrder stored).map Action.content)) := by
  intro final
  obtain ⟨shelves, held⟩ := (holds_empty empty).exists_takeAll valid
  have holds : final.Holds shelves := held.congr rfl
  rcases imports : final.importQueue other (exportText tokenName (actionsOn (shelves subject)))
    false with ⟨result, later⟩
  refine ⟨_, _, result, later, holds.queue subject, holds.exportQueue subject tokenName, imports,
    ?_⟩
  have contents := content_adopt
    (final.supply.length_freshFor (actionsOn (shelves subject))) 0
  rcases holds.importQueue rfl other tokenName (holds.isKept subject) imports with
    failed | ⟨imported, holdsLater⟩
  · exact .inl failed
  · refine .inr ⟨_, _, imported, holdsLater.sortedQueue other, ?_, holds.sortedQueue subject, ?_⟩
    · rw [Function.update_self, actionsOn_refilled, sortedByOrder_handedOn]
      exact contents
    · intro rising
      rw [Function.update_self, actionsOn_refilled, sortedByOrder_handedOn,
        sortedByOrder_of_pairwise rising]
      exact contents

/-! ## A queue out of order -/

def bow : Action := { id := "bow", kind := .attack, order := 1, name := "Bow" }

def axe : Action := { id := "axe", kind := .attack, order := 0, name := "Axe" }

/-- The queue of the hero is set to a bow before an axe, whose orders say otherwise. -/
def arming : List StoreStep :=
  [⟨"hero", .replace [bow, axe], false⟩]

def armed : Archive :=
  { (({} : Archive).takeAll arming).2 with readOnly := false }

theorem isValid_arming : ∀ step ∈ arming, step.op.IsValid := by
  have valid : bow.IsValid ∧ axe.IsValid :=
    ⟨⟨rfl, rfl, by decide, trivial⟩, ⟨rfl, rfl, by decide, trivial⟩⟩
  simp only [arming, List.forall_mem_cons, List.not_mem_nil, false_implies, implies_true,
    and_true, StoreOp.IsValid]
  exact valid

/-- What the shelves are after the arming. -/
theorem holds_armed :
    armed.Holds (Function.update (fun _ => none) "hero" (some { actions := [bow, axe] })) := by
  have holds : ({} : Archive).Holds fun _ => none := holds_empty rfl
  have taken := holds.take_valid
    (isValid_arming ⟨"hero", .replace [bow, axe], false⟩ (by simp [arming]))
  exact taken.congr rfl

theorem queue_armed : armed.queue "hero" = (.ok [bow, axe], armed) := by
  rw [holds_armed.queue, Function.update_self]
  rfl

theorem hands_on_stored_order_armed :
    ∃ text imported later sorted, armed.exportQueue "hero" none = (.ok text, armed) ∧
      armed.importQueue "rogue" text false = (.ok imported, later) ∧
      later.sortedQueue "rogue" = (.ok sorted, later) ∧
      sorted.map Action.content = [bow.content, axe.content] := by
  obtain ⟨stored, text, result, later, queue, exported, imported, outcome⟩ :=
    hands_on_stored_order (a := {}) rfl isValid_arming "hero" "rogue" none
  obtain rfl : stored = [bow, axe] :=
    Except.ok.inj (congrArg Prod.fst (queue.symm.trans queue_armed))
  rcases outcome with ⟨long, _⟩ | ⟨actions, sorted, rfl, inOrder, contents, _⟩
  · exact absurd (ten_le_placeLimit.trans long.le) (by decide)
  · exact ⟨text, actions, later, sorted, exported, imported, inOrder, contents⟩

/-- Sorted by their orders, the axe comes before the bow. -/
theorem sortedByOrder_arms : sortedByOrder [bow, axe] = [axe, bow] := by
  simp [sortedByOrder, List.mergeSort, bow, axe]

/-- The sorted view of the import begins with the bow, and that of the exported queue with the
axe. -/
theorem hands_on_out_of_order :
    ∃ text imported later, armed.exportQueue "hero" none = (.ok text, armed) ∧
      armed.importQueue "rogue" text false = (.ok imported, later) ∧
      (later.sortedQueue "rogue").1.map (·.map Action.content) ≠
        (armed.sortedQueue "hero").1.map (·.map Action.content) := by
  have kept : ∀ action ∈ [bow, axe], action.IsKept := holds_armed.isKept "hero"
  have unlocked : armed.readOnly = false := rfl
  have inOrder : armed.sortedQueue "hero" = (.ok [axe, bow], armed) := by
    rw [holds_armed.sortedQueue, Function.update_self, ← sortedByOrder_arms]
    rfl
  rcases imports : armed.importQueue "rogue" (exportText none [bow, axe]) false with
    ⟨result, later⟩
  rcases holds_armed.importQueue unlocked "rogue" none kept imports with
    ⟨long, _⟩ | ⟨rfl, holds⟩
  · exact absurd (ten_le_placeLimit.trans long.le) (by decide)
  · refine ⟨_, _, later, holds_armed.exportQueue "hero" none, imports, ?_⟩
    have contents : (armed.handedOn [bow, axe]).map Action.content = [bow.content, axe.content] :=
      content_adopt (armed.supply.length_freshFor [bow, axe]) 0
    rw [holds.sortedQueue, Function.update_self, actionsOn_refilled, sortedByOrder_handedOn,
      inOrder]
    simp only [Except.map, contents, ne_eq, Except.ok.injEq]
    simp [Action.content, bow, axe]

end Archive
end TurnScript
