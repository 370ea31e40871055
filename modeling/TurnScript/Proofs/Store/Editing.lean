import TurnScript.Proofs.Store.Places

/-!
# Edits of single parts

An edit names parts of an action and gives them values. The action is written out part by part, the
named parts are replaced, and the whole is checked as a record is. So an edit is as precise as
writing and checking are inverse to each other on every part: the named parts get the values that
the check makes of what they are given, and all others are what they were.
-/

namespace TurnScript

open Record

/-! ## Parts after updates -/

/-- The value of a name after some updates is the one that they give it, or else what it was. -/
theorem get?_updated_or {updates : Fields} (distinct : (Ordered.keys updates).Nodup)
    (fields : Fields) (name : String) :
    Json.get? (updates.foldl (fun fields (name, value) => Json.put fields name value) fields) name =
      (Json.get? updates name).or (Json.get? fields name) := by
  induction updates generalizing fields with
  | nil => rfl
  | cons update rest inductionHypothesis =>
    obtain ⟨absent, restDistinct⟩ := List.nodup_cons.mp distinct
    obtain ⟨other, value⟩ := update
    rw [List.foldl_cons]
    by_cases same : other = name
    · subst same
      have first : Json.get? ((other, value) :: rest) other = some value := by
        simp [Json.get?, Ordered.get?]
      -- No later update gives the name another value.
      rw [get?_updated absent, first]
      exact Ordered.get?_put_self fields other value
    · have first : Json.get? ((other, value) :: rest) name = Json.get? rest name := by
        simp [Json.get?, Ordered.get?, same]
      rw [inductionHypothesis restDistinct, first]
      congr 1
      exact Ordered.get?_put_ne _ _ (Ne.symm same)

/-- A part after some updates: what the check makes of the value that they give it, or else what it
was. -/
def IsUpdated {α : Type} (updates : Fields) (name : String) (check : Json → Checked α)
    (before after : α) : Prop :=
  match Json.get? updates name with
  | some value => check value = .ok after
  | none => after = before

/-- A part comes to one thing at most. -/
theorem IsUpdated.unique {α : Type} {updates : Fields} {name : String} {check : Json → Checked α}
    {before after other : α} (one : IsUpdated updates name check before after)
    (another : IsUpdated updates name check before other) : after = other := by
  unfold IsUpdated at one another
  cases given : Json.get? updates name with
  | none =>
    simp only [given] at one another
    rw [one, another]
  | some value =>
    simp only [given] at one another
    exact Checked.ok.inj (one.symm.trans another)

/-! ## Actions after updates -/

/-- The names under which an edit knows the parts of an action. -/
def Action.partNames : List String :=
  ["id", "type", "order", "enabled", "name", "description", "condition", "payload", "on_success",
    "on_failure"]

theorem Action.keys_parts (action : Action) : Ordered.keys action.parts = partNames := rfl

/-- An action after some updates: every part of it is what the updates make of what it was. -/
structure IsEdited (updates : Fields) (before after : Action) : Prop where
  id : IsUpdated updates "id" readText before.id after.id
  kind : IsUpdated updates "type" (readOpenName ActionKind.ofName) before.kind after.kind
  order : IsUpdated updates "order" readWhole before.order after.order
  enabled : IsUpdated updates "enabled" readTruth before.enabled after.enabled
  name : IsUpdated updates "name" readText before.name after.name
  description : IsUpdated updates "description" readText before.description after.description
  condition : IsUpdated updates "condition" Condition.read before.condition after.condition
  data : IsUpdated updates "payload" Action.readData before.data after.data
  onSuccess : IsUpdated updates "on_success" (optional readText) before.onSuccess after.onSuccess
  onFailure : IsUpdated updates "on_failure" (optional readText) before.onFailure after.onFailure

/-- Updates make one action at most of an action. -/
theorem IsEdited.unique {updates : Fields} {before after other : Action}
    (one : IsEdited updates before after) (another : IsEdited updates before other) :
    after = other := by
  have same : ∀ {a b : Action}, a.id = b.id → a.kind = b.kind → a.order = b.order →
      a.enabled = b.enabled → a.name = b.name → a.description = b.description →
      a.condition = b.condition → a.data = b.data → a.onSuccess = b.onSuccess →
      a.onFailure = b.onFailure → a = b := by
    rintro ⟨⟩ ⟨⟩ rfl rfl rfl rfl rfl rfl rfl rfl rfl rfl
    rfl
  exact same (one.id.unique another.id) (one.kind.unique another.kind)
    (one.order.unique another.order) (one.enabled.unique another.enabled)
    (one.name.unique another.name) (one.description.unique another.description)
    (one.condition.unique another.condition) (one.data.unique another.data)
    (one.onSuccess.unique another.onSuccess) (one.onFailure.unique another.onFailure)

/-- No update leaves an action as it was. -/
theorem isEdited_nil (action : Action) : IsEdited [] action action := by
  constructor <;> rfl

/-- The fields that an edit of an action checks. -/
def editedFields (action : Action) (updates : Fields) : Fields :=
  updates.foldl (fun fields (name, value) => Json.put fields name value) action.parts

section Reading

variable {action edited : Action} {updates : Fields}

/-- The edited fields have no other names than those of the parts. -/
theorem get?_editedFields_foreign (named : ∀ name ∈ Ordered.keys updates, name ∈ Action.partNames)
    {name : String} (foreign : name ∉ Action.partNames) :
    Json.get? (editedFields action updates) name = none := by
  have notGiven : name ∉ Ordered.keys updates := fun given => foreign (named name given)
  rw [editedFields, get?_updated notGiven]
  by_contra there
  obtain ⟨value, found⟩ := Option.ne_none_iff_exists'.mp there
  have member : name ∈ Ordered.keys action.parts :=
    List.mem_map.mpr ⟨(name, value), Ordered.mem_of_get? found, rfl⟩
  exact foreign (action.keys_parts ▸ member)

variable (distinct : (Ordered.keys updates).Nodup)

include distinct

/-- Reading a part of the edited fields gives what the updates make of it, if it is read as what it
was where they leave it. -/
theorem partOr_editedFields {α : Type} {name : String} {check : Json → Checked α} {old : Json}
    {absent before after : α} (there : Json.get? action.parts name = some old)
    (same : check old = .ok before) :
    partOr (editedFields action updates) [name] absent check = .ok after ↔
      IsUpdated updates name check before after := by
  have found := get?_updated_or distinct action.parts name
  rw [there] at found
  unfold IsUpdated
  cases given : Json.get? updates name with
  | none =>
    rw [given, Option.none_or] at found
    simp only [partOr, part, firstNamed, List.findSome?_cons, editedFields, found, Option.map_some,
      Checked.under_eq_ok, same, Checked.ok.injEq]
    exact eq_comm
  | some value =>
    rw [given, Option.some_or] at found
    simp only [partOr, part, firstNamed, List.findSome?_cons, editedFields, found, Option.map_some,
      Checked.under_eq_ok]

variable (named : ∀ name ∈ Ordered.keys updates, name ∈ Action.partNames)

include named

/-- The same with another name in front under which the part is never found. -/
theorem partOr_editedFields_second {α : Type} {first name : String} {check : Json → Checked α}
    {old : Json} {absent before after : α} (foreign : first ∉ Action.partNames)
    (there : Json.get? action.parts name = some old) (same : check old = .ok before) :
    partOr (editedFields action updates) [first, name] absent check = .ok after ↔
      IsUpdated updates name check before after := by
  have unnamed : Json.get? (editedFields action updates) first = none :=
    get?_editedFields_foreign named foreign
  have second : partOr (editedFields action updates) [name] absent check = .ok after ↔
      IsUpdated updates name check before after :=
    partOr_editedFields distinct there same
  rw [← second]
  simp only [partOr, part, firstNamed, List.findSome?_cons, unnamed, Option.map_none]

/-- An action is read from the edited fields exactly if it is the action after the updates. -/
theorem isReadFrom_editedFields (known : action.IsKnown) (fresh : String) :
    Action.IsReadFrom fresh (editedFields action updates) edited ↔
      IsEdited updates action edited := by
  have kindSame : readOpenName ActionKind.ofName (.str action.kind.name) = .ok action.kind := by
    rw [readOpenName, known.kind]
  have conditionSame := Action.readCondition_toRecord known.condition
  have branchSame := Action.optional_readText_ofOption
  constructor
  · intro parts
    constructor
    case id => exact (partOr_editedFields distinct (by rfl) (by rfl)).mp parts.id
    case kind => exact (partOr_editedFields distinct (by rfl) kindSame).mp parts.kind
    case order => exact (partOr_editedFields distinct (by rfl) (by rfl)).mp parts.order
    case enabled => exact (partOr_editedFields distinct (by rfl) (by rfl)).mp parts.enabled
    case name => exact (partOr_editedFields distinct (by rfl) (by rfl)).mp parts.name
    case description => exact (partOr_editedFields distinct (by rfl) (by rfl)).mp parts.description
    case condition =>
      exact (partOr_editedFields_second distinct named (by decide) (by rfl) conditionSame).mp
        parts.condition
    case data =>
      exact (partOr_editedFields_second distinct named (by decide) (by rfl) (by rfl)).mp
        parts.data
    case onSuccess =>
      exact (partOr_editedFields_second distinct named (by decide) (by rfl) (branchSame _)).mp
        parts.onSuccess
    case onFailure =>
      exact (partOr_editedFields_second distinct named (by decide) (by rfl) (branchSame _)).mp
        parts.onFailure
  · intro parts
    constructor
    case id => exact (partOr_editedFields distinct (by rfl) (by rfl)).mpr parts.id
    case kind => exact (partOr_editedFields distinct (by rfl) kindSame).mpr parts.kind
    case order => exact (partOr_editedFields distinct (by rfl) (by rfl)).mpr parts.order
    case enabled => exact (partOr_editedFields distinct (by rfl) (by rfl)).mpr parts.enabled
    case name => exact (partOr_editedFields distinct (by rfl) (by rfl)).mpr parts.name
    case description => exact (partOr_editedFields distinct (by rfl) (by rfl)).mpr parts.description
    case condition =>
      exact (partOr_editedFields_second distinct named (by decide) (by rfl) conditionSame).mpr
        parts.condition
    case data =>
      exact (partOr_editedFields_second distinct named (by decide) (by rfl) (by rfl)).mpr
        parts.data
    case onSuccess =>
      exact (partOr_editedFields_second distinct named (by decide) (by rfl) (branchSame _)).mpr
        parts.onSuccess
    case onFailure =>
      exact (partOr_editedFields_second distinct named (by decide) (by rfl) (branchSame _)).mpr
        parts.onFailure

end Reading

namespace Archive

/-- Editing an action makes of it what the updates make of its parts, and uses no fresh id. -/
theorem editAction_eq_ok {supply after : IdSupply} {action edited : Action} {updates : Fields}
    (known : action.IsKnown) (distinct : (Ordered.keys updates).Nodup)
    (named : ∀ name ∈ Ordered.keys updates, name ∈ Action.partNames) :
    editAction supply action updates = (.ok edited, after) ↔
      IsEdited updates action edited ∧ after = supply := by
  have idThere : Json.get? action.parts "id" = some (.str action.id) := rfl
  have needless : Action.needsId (.obj (editedFields action updates)) = false := by
    rw [Action.needsId, editedFields, get?_updated_or distinct, idThere]
    simp
  have reading : editAction supply action updates =
      (Action.readFields "" (editedFields action updates), supply) := by
    rw [editAction, Action.read, ← editedFields, needless]
    rfl
  rw [reading, Prod.mk.injEq, Action.readFields_eq_ok,
    isReadFrom_editedFields distinct named known]
  exact and_congr_right fun _ => eq_comm

end Archive

/-! ## Queues after an edit -/

/-- An action is the first one with an id. -/
structure IsFirst (stored : List Action) (id : String) (place : Nat) (action : Action) : Prop where
  there : stored[place]? = some action
  same : action.id = id
  others : ∀ earlier ∈ stored.take place, earlier.id ≠ id

/-- What an edit of the action with an id answers, and what is stored then. -/
inductive Edits (locked : Bool) (subject : String) (stored : List Action) (id : String)
    (updates : Fields) : Except StoreError (Option Action) → List Action → Prop
  | absent (unknown : ∀ action ∈ stored, action.id ≠ id) :
    Edits locked subject stored id updates (.ok none) stored
  | replaced {place : Nat} {action edited : Action} (first : IsFirst stored id place action)
      (edit : IsEdited updates action edited) (writable : edited.isWritable = true)
      (unlocked : locked = false) :
    Edits locked subject stored id updates (.ok (some edited)) (stored.set place edited)
  | refused {place : Nat} {action : Action} (first : IsFirst stored id place action)
      (invalid : ∀ edited, ¬ IsEdited updates action edited) (faults : List Fault) :
    Edits locked subject stored id updates (.error (.record faults)) stored
  | unwritable {place : Nat} {action edited : Action} (first : IsFirst stored id place action)
      (edit : IsEdited updates action edited) (unwritable : edited.isWritable = false) :
    Edits locked subject stored id updates (.error .unwritable) stored
  | unsaved {place : Nat} {action edited : Action} (first : IsFirst stored id place action)
      (edit : IsEdited updates action edited) (writable : edited.isWritable = true)
      (isLocked : locked = true) :
    Edits locked subject stored id updates (.error (.save subject)) stored

/-- An edit that names nothing leaves what is stored. -/
theorem Edits.of_nil {locked : Bool} {subject id : String} {stored left : List Action}
    {result : Except StoreError (Option Action)}
    (edits : Edits locked subject stored id [] result left) : left = stored := by
  cases edits with
  | absent _ | refused _ _ _ | unwritable _ _ _ | unsaved _ _ _ _ => rfl
  | replaced first edit _ _ =>
    obtain ⟨inside, there⟩ := List.getElem?_eq_some_iff.mp first.there
    rw [edit.unique (isEdited_nil _), ← there, List.set_getElem_self]

/-- The place of an id in a queue is that of the first action with the id. -/
theorem isFirst_of_findIdx? {stored : List Action} {id : String} {place : Nat}
    (found : stored.findIdx? (·.id == id) = some place) :
    ∃ action, stored[place]? = some action ∧ IsFirst stored id place action := by
  obtain ⟨inside, same, before⟩ := List.findIdx?_eq_some_iff_getElem.mp found
  have there : stored[place]? = some stored[place] := List.getElem?_eq_getElem inside
  refine ⟨_, there, there, eq_of_beq same, fun earlier member => ?_⟩
  obtain ⟨other, bound, rfl⟩ := List.mem_take_iff_getElem.mp member
  have unlike := before other (by omega)
  simpa using unlike

namespace Archive

/-- A queue whose actions can be written can be written with another action if that can be. -/
theorem all_isWritable_set {stored : List Action} {place : Nat} (inside : place < stored.length)
    (writable : ∀ action ∈ stored, action.isWritable = true) (edited : Action) :
    (stored.set place edited).all Action.isWritable = edited.isWritable := by
  rw [Bool.eq_iff_iff, List.all_eq_true]
  constructor
  · intro all
    exact all edited (List.mem_set inside edited)
  · intro isWritable action member
    rcases List.mem_or_eq_of_mem_set member with old | rfl
    · exact writable action old
    · exact isWritable

variable {a : Archive} {shelves : Shelves}

section Named

variable {updates : Fields} (named : ∀ name ∈ Ordered.keys updates, name ∈ Action.partNames)

include named

/-- No part has the name of a place. -/
theorem noPlace_of_named :
    (updates.find? fun (name, _) => placeNames.contains name) = none := by
  apply List.find?_eq_none.mpr
  rintro ⟨name, value⟩ member
  have isPart := named name (List.mem_map.mpr ⟨(name, value), member, rfl⟩)
  have apart : ∀ part ∈ Action.partNames, ¬ placeNames.contains part = true := by
    decide
  exact apart name isPart

/-- An edit answers nothing where no action has the id. -/
theorem Holds.updateAction_absent (holds : a.Holds shelves) {subject id : String}
    (absent : (actionsOn (shelves subject)).findIdx? (·.id == id) = none) :
    a.updateAction subject id updates = (.ok none, a) := by
  simp only [Archive.updateAction, noPlace_of_named named, holds.queue, absent]

section Found

variable {subject id : String} {place : Nat} {action : Action} {supply : IdSupply}
  (found : (actionsOn (shelves subject)).findIdx? (·.id == id) = some place)
  (there : (actionsOn (shelves subject))[place]? = some action)

include found there

/-- An edit fails with the faults of the first action with the id. -/
theorem Holds.updateAction_refused (holds : a.Holds shelves) {faults : List Fault}
    (refused : editAction a.supply action updates = (.refused faults, supply)) :
    a.updateAction subject id updates = (.error (.record faults), { a with supply }) := by
  have atPlace : (actionsOn (shelves subject)).getD place { id } = action := by
    rw [List.getD_eq_getElem?_getD, there, Option.getD_some]
  simp only [Archive.updateAction, noPlace_of_named named, holds.queue, found, atPlace, refused]

/-- An edit that passes puts the first action with the id back in its place. -/
theorem Holds.updateAction_passed (holds : a.Holds shelves) {edited : Action}
    (passed : editAction a.supply action updates = (.ok edited, supply)) :
    a.updateAction subject id updates = { a with supply }.setQueueThen subject
      ((actionsOn (shelves subject)).set place edited) (some edited) := by
  have atPlace : (actionsOn (shelves subject)).getD place { id } = action := by
    rw [List.getD_eq_getElem?_getD, there, Option.getD_some]
  simp only [Archive.updateAction, noPlace_of_named named, holds.queue, found, atPlace, passed]

end Found

variable (distinct : (Ordered.keys updates).Nodup)

include distinct

/-- An edit by names of parts comes to what it should, and leaves the other shelves. -/
theorem Holds.updateAction_edits (holds : a.Holds shelves) (subject id : String)
    (clean : (StoreOp.edit id updates).IsClean) :
    ∃ result later left, a.updateAction subject id updates = (result, later) ∧
      Edits a.readOnly subject (actionsOn (shelves subject)) id updates result left ∧
      ((∀ edited, result ≠ .ok (some edited)) → later.rows = a.rows) ∧
      ∃ shelvesLater, later.Holds shelvesLater ∧ actionsOn (shelvesLater subject) = left ∧
        ∀ other ≠ subject, shelvesLater other = shelves other := by
  cases found : (actionsOn (shelves subject)).findIdx? (·.id == id) with
  | none =>
    have unknown : ∀ action ∈ actionsOn (shelves subject), action.id ≠ id := by
      simpa using found
    exact ⟨_, _, _, holds.updateAction_absent named found, .absent unknown, fun _ => rfl, shelves,
      holds, rfl, fun _ _ => rfl⟩
  | some place =>
    obtain ⟨action, there, first⟩ := isFirst_of_findIdx? found
    obtain ⟨inside, same⟩ := List.getElem?_eq_some_iff.mp there
    have member : action ∈ actionsOn (shelves subject) := same ▸ List.getElem_mem inside
    have faithful := holds.isFaithful subject action member
    have known : action.IsKnown := ⟨faithful.valid.kind, faithful.valid.condition⟩
    rcases edit : editAction a.supply action updates with ⟨checked, supply⟩
    cases checked with
    | refused faults =>
      have invalid : ∀ edited, ¬ IsEdited updates action edited := by
        intro edited isEdited
        have passes : editAction a.supply action updates = (.ok edited, a.supply) :=
          (editAction_eq_ok known distinct named).mpr ⟨isEdited, rfl⟩
        cases edit.symm.trans passes
      exact ⟨_, _, _, holds.updateAction_refused named found there edit,
        .refused first invalid faults, fun _ => rfl, shelves, holds.congr rfl, rfl, fun _ _ => rfl⟩
    | ok edited =>
      obtain ⟨isEdited, rfl⟩ := (editAction_eq_ok known distinct named).mp edit
      have allFaithful : ∀ other ∈ (actionsOn (shelves subject)).set place edited,
          other.IsFaithful := by
        intro other inSet
        rcases List.mem_or_eq_of_mem_set inSet with old | rfl
        · exact holds.isFaithful subject other old
        · exact isFaithful_of_edit faithful clean edit
      have all := all_isWritable_set inside
        (fun other member => (holds.isKept subject other member).writable) edited
      rw [holds.updateAction_passed named found there edit, Archive.setQueueThen]
      rcases holds.setQueue_cases subject allFaithful with
        ⟨unwritable, result⟩ | ⟨canWrite, isLocked, result⟩ |
          ⟨canWrite, unlocked, later, result, holdsLater⟩
      · rw [result]
        exact ⟨_, _, _, rfl, .unwritable first isEdited (all.symm.trans unwritable), fun _ => rfl,
          shelves, holds, rfl, fun _ _ => rfl⟩
      · rw [result]
        exact ⟨_, _, _, rfl, .unsaved first isEdited (all.symm.trans canWrite) isLocked,
          fun _ => rfl, shelves, holds, rfl, fun _ _ => rfl⟩
      · rw [result]
        refine ⟨_, _, _, rfl, .replaced first isEdited (all.symm.trans canWrite) unlocked,
          fun notEdited => absurd rfl (notEdited edited), _, holdsLater, ?_, ?_⟩
        · rw [Function.update_self, actionsOn_refilled]
        · intro other elsewhere
          exact Function.update_of_ne elsewhere ..

end Named

/-- After every history with valid actions, an edit by names of parts, given no float that is
infinite or no number, comes to one of these. No action has the id, and it answers so. Or it fails
for the first action that has it: what it is given for a part does not pass the check, the edited
action cannot be written, or the table is locked. Or the first action with the id is replaced in its
place by the one in which each named part has the checked value and all others are as before. Only
then any row changes. The queues of other subjects are as before in any case, and so is this queue
if nothing is named. -/
theorem edit_is_precise {a : Archive} (empty : a.rows = some []) {steps : List StoreStep}
    (valid : ∀ step ∈ steps, step.op.IsValid) (locked : Bool) (subject id : String)
    {updates : Fields} (distinct : (Ordered.keys updates).Nodup)
    (named : ∀ name ∈ Ordered.keys updates, name ∈ Action.partNames)
    (clean : (StoreOp.edit id updates).IsClean) :
    let final := { (a.takeAll steps).2 with readOnly := locked }
    let result := (final.updateAction subject id updates).1
    let later := (final.updateAction subject id updates).2
    ∃ stored left, final.queue subject = (.ok stored, final) ∧
      later.queue subject = (.ok left, later) ∧
      Edits locked subject stored id updates result left ∧
      ((∀ edited, result ≠ .ok (some edited)) → left = stored ∧ later.rows = final.rows) ∧
      (updates = [] → left = stored) ∧
      ∀ other ≠ subject, (later.queue other).1 = (final.queue other).1 := by
  intro final result later
  obtain ⟨shelves, held⟩ := (holds_empty empty).exists_takeAll valid
  have holds : final.Holds shelves := held.congr rfl
  obtain ⟨answer, archive, left, same, edits, unchanged, shelvesLater, holdsLater, onShelf, others⟩ :=
    holds.updateAction_edits named distinct subject id clean
  have isResult : result = answer := congrArg Prod.fst same
  have isLater : later = archive := congrArg Prod.snd same
  rw [isResult, isLater]
  refine ⟨_, left, holds.queue subject, onShelf ▸ holdsLater.queue subject, edits, ?_, ?_, ?_⟩
  · intro notEdited
    refine ⟨?_, unchanged notEdited⟩
    cases edits with
    | absent _ | refused _ _ _ | unwritable _ _ _ | unsaved _ _ _ _ => rfl
    | replaced _ _ _ _ => exact absurd rfl (notEdited _)
  · rintro rfl
    exact edits.of_nil
  · intro other elsewhere
    rw [holdsLater.queue, holds.queue, others other elsewhere]

/-- The axe gets another name, and an order number that is spelled as a text. -/
def whetting : Fields :=
  [("name", .str "Hatchet"), ("order", .str "3")]

def hatchet : Action :=
  { axe with name := "Hatchet", order := 3 }

theorem isEdited_hatchet : IsEdited whetting axe hatchet := by
  constructor <;> rfl

/-- The axe is replaced in its place behind the bow. -/
theorem edit_is_precise_whetting :
    let later := (armed.updateAction "hero" "axe" whetting).2
    (armed.updateAction "hero" "axe" whetting).1 = .ok (some hatchet) ∧
      later.queue "hero" = (.ok [bow, hatchet], later) := by
  intro later
  have distinct : (Ordered.keys whetting).Nodup := by decide
  have named : ∀ name ∈ Ordered.keys whetting, name ∈ Action.partNames := by decide
  have clean : (StoreOp.edit "axe" whetting).IsClean := by
    rintro name value member isData
    have given : name ∈ Ordered.keys whetting := List.mem_map.mpr ⟨(name, value), member, rfl⟩
    have apart : ∀ other ∈ Ordered.keys whetting, other ∉ ["data", "payload"] := by decide
    exact absurd isData (apart name given)
  obtain ⟨stored, left, queue, queueLater, edits, -⟩ :=
    edit_is_precise (a := {}) rfl isValid_arming false "hero" "axe" distinct named clean
  obtain rfl : stored = [bow, axe] :=
    Except.ok.inj (congrArg Prod.fst (queue.symm.trans queue_armed))
  have first {place : Nat} {action : Action} (isFirst : IsFirst [bow, axe] "axe" place action) :
      place = 1 ∧ action = axe := by
    obtain ⟨there, same, -⟩ := isFirst
    match place with
    | 0 =>
      obtain rfl := Option.some.inj there
      exact absurd same (by decide)
    | 1 => exact ⟨rfl, (Option.some.inj there).symm⟩
  have onArmed : Edits false "hero" [bow, axe] "axe" whetting
      (armed.updateAction "hero" "axe" whetting).1 left := edits
  generalize (armed.updateAction "hero" "axe" whetting).1 = answer at onArmed ⊢
  cases onArmed with
  | absent unknown => exact absurd rfl (unknown axe (by simp))
  | replaced isFirst edit _ _ =>
    obtain ⟨rfl, rfl⟩ := first isFirst
    obtain rfl := edit.unique isEdited_hatchet
    exact ⟨rfl, queueLater⟩
  | refused isFirst invalid _ =>
    obtain ⟨-, rfl⟩ := first isFirst
    exact absurd isEdited_hatchet (invalid hatchet)
  | unwritable isFirst edit unwritable =>
    obtain ⟨-, rfl⟩ := first isFirst
    obtain rfl := edit.unique isEdited_hatchet
    exact absurd unwritable (by decide)
  | unsaved _ _ _ isLocked => exact absurd isLocked (by decide)

end Archive
end TurnScript
