import TurnScript.Proofs.Json.Delivery
import TurnScript.Script.Record

/-!
# Records of actions read back

The record that is written for an action is read as the action, save that floats in its data that
are not finite have become null. It holds for actions as a check delivers them: the names in them
are known where they can be, and their data is proper. Every record that passes the check gives
such an action, so an action that was read once is kept from then on.
-/

namespace TurnScript

namespace Json

/-! ## What is stored of a value -/

mutual
/-- No float in a value is infinite or no number. -/
def IsFinite : Json → Prop
  | float (.finite _ _ _) => True
  | float _ => False
  | arr items => IsFiniteItems items
  | obj fields => IsFiniteFields fields
  | _ => True

/-- Every item is finite. -/
def IsFiniteItems : List Json → Prop
  | [] => True
  | item :: rest => IsFinite item ∧ IsFiniteItems rest

/-- The value of every field is finite. -/
def IsFiniteFields : List (String × Json) → Prop
  | [] => True
  | (_, value) :: rest => IsFinite value ∧ IsFiniteFields rest
end

mutual
/-- A finite value is stored as it is. -/
theorem storable_of_isFinite : ∀ value : Json, value.IsFinite → value.storable = value
  | null, _ | bool _, _ | int _, _ | str _, _ => rfl
  | float (.finite _ _ _), _ => rfl
  | float (.infinite _), finite | float .nan, finite => finite.elim
  | arr items, finite => by
    rw [IsFinite] at finite
    rw [storable, storableItems_of_isFinite items finite]
  | obj fields, finite => by
    rw [IsFinite] at finite
    rw [storable, storableFields_of_isFinite fields finite]

theorem storableItems_of_isFinite :
    ∀ items : List Json, IsFiniteItems items → storableItems items = items
  | [], _ => rfl
  | item :: rest, finite => by
    rw [storableItems, storable_of_isFinite item finite.1, storableItems_of_isFinite rest finite.2]

theorem storableFields_of_isFinite :
    ∀ fields : Fields, IsFiniteFields fields → storableFields fields = fields
  | [], _ => rfl
  | (_, value) :: rest, finite => by
    rw [storableFields, storable_of_isFinite value finite.1,
      storableFields_of_isFinite rest finite.2]
end

mutual
/-- What is stored of a value is stored as it is. -/
theorem storable_storable : ∀ value : Json, value.storable.storable = value.storable
  | null | bool _ | int _ | str _ => rfl
  | float (.finite _ _ _) | float (.infinite _) | float .nan => rfl
  | arr items => by simp only [storable, storableItems_storableItems items]
  | obj fields => by simp only [storable, storableFields_storableFields fields]

theorem storableItems_storableItems :
    ∀ items : List Json, storableItems (storableItems items) = storableItems items
  | [] => rfl
  | item :: rest => by
    simp only [storableItems, storable_storable item, storableItems_storableItems rest]

theorem storableFields_storableFields :
    ∀ fields : Fields, storableFields (storableFields fields) = storableFields fields
  | [] => rfl
  | (_, value) :: rest => by
    simp only [storableFields, storable_storable value, storableFields_storableFields rest]
end

/-- Storing leaves the names of an object. -/
theorem keys_storableFields (fields : Fields) :
    Ordered.keys (storableFields fields) = Ordered.keys fields := by
  induction fields with
  | nil => rfl
  | cons field rest inductionHypothesis =>
    obtain ⟨name, value⟩ := field
    rw [storableFields]
    simpa [Ordered.keys] using inductionHypothesis

mutual
/-- What is stored of a proper value is proper. -/
theorem isProper_storable : ∀ value : Json, value.IsProper → value.storable.IsProper
  | null, _ | bool _, _ | int _, _ | str _, _ => trivial
  | float (.finite _ _ _), proper => proper
  | float (.infinite _), _ | float .nan, _ => trivial
  | arr items, proper => by
    rw [IsProper] at proper
    rw [storable, IsProper]
    exact isProperItems_storableItems items proper
  | obj fields, proper => by
    rw [IsProper] at proper
    rw [storable, IsProper, keys_storableFields]
    exact ⟨proper.1, isProperFields_storableFields fields proper.2⟩

theorem isProperItems_storableItems :
    ∀ items : List Json, IsProperItems items → IsProperItems (storableItems items)
  | [], _ => trivial
  | item :: rest, proper =>
    ⟨isProper_storable item proper.1, isProperItems_storableItems rest proper.2⟩

theorem isProperFields_storableFields :
    ∀ fields : Fields, IsProperFields fields → IsProperFields (storableFields fields)
  | [], _ => trivial
  | (_, value) :: rest, proper =>
    ⟨isProper_storable value proper.1, isProperFields_storableFields rest proper.2⟩
end

mutual
/-- Storing changes no whole number. -/
theorem isWritable_storable : ∀ value : Json, value.storable.isWritable = value.isWritable
  | null | bool _ | int _ | str _ => rfl
  | float (.finite _ _ _) | float (.infinite _) | float .nan => rfl
  | arr items => by simp only [storable, isWritable, isWritableItems_storableItems items]
  | obj fields => by simp only [storable, isWritable, isWritableFields_storableFields fields]

theorem isWritableItems_storableItems :
    ∀ items : List Json, isWritableItems (storableItems items) = isWritableItems items
  | [] => rfl
  | item :: rest => by
    simp only [storableItems, isWritableItems, isWritable_storable item,
      isWritableItems_storableItems rest]

theorem isWritableFields_storableFields :
    ∀ fields : Fields, isWritableFields (storableFields fields) = isWritableFields fields
  | [] => rfl
  | (_, value) :: rest => by
    simp only [storableFields, isWritableFields, isWritable_storable value,
      isWritableFields_storableFields rest]
end

mutual
/-- Storing changes no depth. -/
theorem depth_storable : ∀ value : Json, value.storable.depth = value.depth
  | null | bool _ | int _ | str _ => rfl
  | float (.finite _ _ _) | float (.infinite _) | float .nan => rfl
  | arr items => by simp only [storable, depth, depthItems_storableItems items]
  | obj fields => by simp only [storable, depth, depthFields_storableFields fields]

theorem depthItems_storableItems :
    ∀ items : List Json, depthItems (storableItems items) = depthItems items
  | [] => rfl
  | item :: rest => by
    simp only [storableItems, depthItems, depth_storable item, depthItems_storableItems rest]

theorem depthFields_storableFields :
    ∀ fields : Fields, depthFields (storableFields fields) = depthFields fields
  | [] => rfl
  | (_, value) :: rest => by
    simp only [storableFields, depthFields, depth_storable value,
      depthFields_storableFields rest]
end

end Json

namespace Record.Checked

variable {α β : Type}

/-! ## Checks that pass -/

/-- Something built on a check passes if the check does. -/
theorem map_eq_ok {build : α → β} {check : Checked α} {made : β} :
    check.map build = .ok made ↔ ∃ value, check = .ok value ∧ build value = made := by
  cases check <;> simp [Checked.map]

/-- Two checks pass if both do. -/
theorem also_eq_ok {first : Checked (α → β)} {second : Checked α} {made : β} :
    first.also second = .ok made ↔
      ∃ build value, first = .ok build ∧ second = .ok value ∧ build value = made := by
  cases first <;> cases second <;> simp [Checked.also]

/-- Where a check is seen from does not matter for passing. -/
theorem under_eq_ok {check : Checked α} {step : Step} {value : α} :
    check.under step = .ok value ↔ check = .ok value := by
  cases check <;> simp [Checked.under]

end Record.Checked

open Record

/-- A part that is left out has its usual value; else its check has passed. -/
theorem of_partOr_eq_ok {α : Type} {fields : Fields} {names : List String} {absent value : α}
    {read : Json → Checked α} (ok : partOr fields names absent read = .ok value) :
    (firstNamed fields names = none ∧ value = absent) ∨
      ∃ name part, firstNamed fields names = some (name, part) ∧ read part = .ok value := by
  unfold partOr part at ok
  split at ok
  · next name part named => exact .inr ⟨name, part, named, Checked.under_eq_ok.mp ok⟩
  · next unnamed => exact .inl ⟨unnamed, (Checked.ok.inj ok).symm⟩

/-- What is found under some names is one of the values of the fields, under one of the names. -/
theorem mem_of_firstNamed {fields : Fields} {names : List String} {name : String} {part : Json}
    (named : firstNamed fields names = some (name, part)) :
    name ∈ names ∧ (name, part) ∈ fields := by
  obtain ⟨candidate, known, found⟩ := List.exists_of_findSome?_eq_some named
  obtain ⟨value, got, same⟩ := Option.map_eq_some_iff.mp found
  obtain ⟨rfl, rfl⟩ := Prod.mk.inj same
  exact ⟨known, Ordered.mem_of_get? got⟩

namespace Action

/-! ## Actions as a check delivers them -/

/-- The names in an action are known where they can be, and its data is proper. -/
structure IsValid (a : Action) : Prop where
  kind : ActionKind.ofName a.kind.name = a.kind
  condition : ConditionKind.ofName a.condition.kind.name = a.condition.kind
  data : (Json.obj a.data).IsProper

/-- The names in an action are known where they can be. -/
structure IsKnown (a : Action) : Prop where
  kind : ActionKind.ofName a.kind.name = a.kind
  condition : ConditionKind.ofName a.condition.kind.name = a.condition.kind

/-- The data of an action has no float that is infinite or no number. -/
def IsFinite (a : Action) : Prop :=
  Json.IsFiniteFields a.data

/-- Each part of an action is read from the fields of a record. -/
structure IsReadFrom (fresh : String) (fields : Fields) (a : Action) : Prop where
  id : partOr fields ["id"] fresh readText = .ok a.id
  kind : partOr fields ["type"] .movement (readOpenName ActionKind.ofName) = .ok a.kind
  order : partOr fields ["order"] 0 Record.readWhole = .ok a.order
  enabled : partOr fields ["enabled"] true readTruth = .ok a.enabled
  name : partOr fields ["name"] "Untitled Action" readText = .ok a.name
  description : partOr fields ["description"] "" readText = .ok a.description
  condition : partOr fields ["conditions", "condition"] {} Condition.read = .ok a.condition
  data : partOr fields ["data", "payload"] [] readData = .ok a.data
  onSuccess : partOr fields ["onSuccess", "on_success"] none (optional readText) = .ok a.onSuccess
  onFailure : partOr fields ["onFailure", "on_failure"] none (optional readText) = .ok a.onFailure

/-- An action is read from fields if each of its parts is. -/
theorem readFields_eq_ok {fresh : String} {fields : Fields} {a : Action} :
    readFields fresh fields = .ok a ↔ IsReadFrom fresh fields a := by
  constructor
  · intro ok
    simp only [readFields, Checked.also_eq_ok, Checked.map_eq_ok] at ok
    obtain ⟨_, _, ⟨_, _, ⟨_, _, ⟨_, _, ⟨_, _, ⟨_, _, ⟨_, _, ⟨_, _, ⟨_, _, ⟨_, id, rfl⟩, kind, rfl⟩,
      order, rfl⟩, enabled, rfl⟩, name, rfl⟩, description, rfl⟩, condition, rfl⟩, data, rfl⟩,
      onSuccess, rfl⟩, onFailure, rfl⟩ := ok
    exact ⟨id, kind, order, enabled, name, description, condition, data, onSuccess, onFailure⟩
  · rintro ⟨id, kind, order, enabled, name, description, condition, data, onSuccess, onFailure⟩
    simp only [readFields, id, kind, order, enabled, name, description, condition, data, onSuccess,
      onFailure, Checked.also, Checked.map]

/-- What is kept of a name is known where it can be. -/
theorem of_readOpenName_eq_ok {α : Type} {ofText : String → α} {value : Json} {kept : α}
    (ok : readOpenName ofText value = .ok kept) : ∃ text, kept = ofText text := by
  unfold readOpenName at ok
  split at ok
  · exact ⟨_, (Checked.ok.inj ok).symm⟩
  · cases ok

/-- The kind of a condition that has been read is known where it can be. -/
theorem known_of_readCondition {value : Json} {condition : Condition}
    (ok : Condition.read value = .ok condition) :
    ConditionKind.ofName condition.kind.name = condition.kind := by
  unfold Condition.read at ok
  split at ok
  · simp only [Checked.also_eq_ok, Checked.map_eq_ok] at ok
    obtain ⟨_, _, ⟨_, kind, rfl⟩, _, rfl⟩ := ok
    rcases of_partOr_eq_ok kind with ⟨_, rfl⟩ | ⟨_, _, _, read⟩
    · rfl
    · obtain ⟨text, rfl⟩ := of_readOpenName_eq_ok read
      rw [ConditionKind.name_ofName]
  · cases ok

/-- Data that has been read is the object that was read. -/
theorem of_readData_eq_ok {value : Json} {data : Fields} (ok : readData value = .ok data) :
    value = .obj data := by
  unfold readData at ok
  split at ok
  · rw [Checked.ok.inj ok]
  · cases ok

/-- The names in an action that has been read from fields are known where they can be. -/
theorem isKnown_of_readFields {fresh : String} {fields : Fields} {a : Action}
    (ok : readFields fresh fields = .ok a) : a.IsKnown := by
  have parts := readFields_eq_ok.mp ok
  constructor
  · rcases of_partOr_eq_ok parts.kind with ⟨_, usual⟩ | ⟨_, _, _, read⟩
    · rw [usual]
      rfl
    · obtain ⟨text, same⟩ := of_readOpenName_eq_ok read
      rw [same, ActionKind.name_ofName]
  · rcases of_partOr_eq_ok parts.condition with ⟨_, usual⟩ | ⟨_, _, _, read⟩
    · rw [usual]
      rfl
    · exact known_of_readCondition read

/-- An action that has been read from fields is valid, if what they name as data is proper. -/
theorem isValid_of_readFields {fresh : String} {fields : Fields} {a : Action}
    (proper : ∀ name part, firstNamed fields ["data", "payload"] = some (name, part) →
      part.IsProper)
    (ok : readFields fresh fields = .ok a) : a.IsValid := by
  have known := isKnown_of_readFields ok
  refine ⟨known.kind, known.condition, ?_⟩
  rcases of_partOr_eq_ok (readFields_eq_ok.mp ok).data with ⟨_, usual⟩ | ⟨name, part, named, read⟩
  · rw [usual]
    exact Json.isSound_obj_nil.1
  · rw [← of_readData_eq_ok read]
    exact proper name part named

/-- An action that has been read from fields is stored as it is, if what they name as data is. -/
theorem stored_of_readFields {fresh : String} {fields : Fields} {a : Action}
    (same : ∀ name part, firstNamed fields ["data", "payload"] = some (name, part) →
      part.storable = part)
    (ok : readFields fresh fields = .ok a) : a.stored = a := by
  have unchanged : Json.storableFields a.data = a.data := by
    rcases of_partOr_eq_ok (readFields_eq_ok.mp ok).data with ⟨_, usual⟩ | ⟨name, part, named, read⟩
    · rw [usual]
      rfl
    · have whole := same name part named
      rw [of_readData_eq_ok read, Json.storable] at whole
      exact Json.obj.inj whole
  rw [stored, unchanged]

/-- Reading an action reads the fields of an object. -/
theorem of_read_eq_ok {supply after : IdSupply} {record : Json} {a : Action}
    (ok : read supply record = (.ok a, after)) :
    ∃ fresh fields, record = .obj fields ∧ readFields fresh fields = .ok a := by
  have ofReadWith {fresh : String} (passed : readWith fresh record = .ok a) :
      ∃ fresh fields, record = .obj fields ∧ readFields fresh fields = .ok a := by
    unfold readWith at passed
    split at passed
    · exact ⟨_, _, rfl, passed⟩
    · cases passed
  unfold read at ok
  split at ok
  all_goals exact ofReadWith (congrArg Prod.fst ok)

/-- An action that has been read from a proper record is valid. -/
theorem isValid_of_read {supply after : IdSupply} {record : Json} {a : Action}
    (proper : record.IsProper) (ok : read supply record = (.ok a, after)) : a.IsValid := by
  obtain ⟨fresh, fields, rfl, passed⟩ := of_read_eq_ok ok
  refine isValid_of_readFields (fun name part named => ?_) passed
  rw [Json.IsProper, Json.isProperFields_iff] at proper
  exact proper.2 _ (mem_of_firstNamed named).2

/-! ## What is stored of an action -/

/-- A finite action is stored as it is. -/
theorem stored_of_isFinite {a : Action} (finite : a.IsFinite) : a.stored = a := by
  rw [stored, Json.storableFields_of_isFinite a.data finite]

@[simp] theorem stored_stored (a : Action) : a.stored.stored = a.stored := by
  simp only [stored, Json.storableFields_storableFields]

@[simp] theorem toRecord_stored (a : Action) : a.stored.toRecord = a.toRecord := by
  simp only [toRecord, stored, Json.storableFields_storableFields]

@[simp] theorem isWritable_stored (a : Action) : a.stored.isWritable = a.isWritable := by
  simp only [isWritable, stored, Json.depthFields_storableFields,
    Json.isWritableFields_storableFields]

theorem IsValid.stored {a : Action} (valid : a.IsValid) : a.stored.IsValid where
  kind := valid.kind
  condition := valid.condition
  data := Json.isProper_storable (.obj a.data) valid.data

/-! ## Written records -/

/-- The names of the parts of a record. -/
theorem keys_toRecord (a : Action) : Ordered.keys a.toRecord.asFields =
    ["id", "type", "order", "enabled", "name", "description", "conditions", "data", "onSuccess",
      "onFailure"] := rfl

theorem isSound_ofOption (text : Option String) : (Json.ofOption .str text).IsSound := by
  cases text <;> exact ⟨trivial, rfl⟩

/-- The record of an action that can be written is sound. -/
theorem isSound_toRecord {a : Action} (valid : a.IsValid) (writable : a.isWritable = true) :
    a.toRecord.IsSound := by
  simp only [isWritable, Bool.and_eq_true, decide_eq_true_eq] at writable
  have order : (Json.int a.order).IsSound := ⟨trivial, writable.2⟩
  have data : (Json.obj (Json.storableFields a.data)).IsSound :=
    ⟨valid.stored.data, (Json.isWritableFields_storableFields a.data).trans writable.1.2⟩
  have condition : a.condition.toRecord.IsSound := by
    refine Json.isSound_obj.mpr ⟨by simp [Ordered.keys], ?_⟩
    simp only [List.forall_mem_cons, List.not_mem_nil, false_implies, implies_true, and_true]
    exact ⟨⟨trivial, rfl⟩, isSound_ofOption _⟩
  refine Json.isSound_obj.mpr ⟨?_, ?_⟩
  · have names := keys_toRecord a
    simp only [toRecord, Json.asFields] at names
    rw [names]
    decide
  · simp only [List.forall_mem_cons, List.not_mem_nil, false_implies, implies_true, and_true]
    exact ⟨⟨trivial, rfl⟩, ⟨trivial, rfl⟩, order, ⟨trivial, rfl⟩, ⟨trivial, rfl⟩, ⟨trivial, rfl⟩,
      condition, data, isSound_ofOption _, isSound_ofOption _⟩

theorem optional_readText_ofOption (text : Option String) :
    optional readText (Json.ofOption .str text) = .ok text := by
  cases text <;> rfl

/-- The record of a condition whose kind is known where it can be is read as the condition. -/
theorem readCondition_toRecord {condition : Condition}
    (known : ConditionKind.ofName condition.kind.name = condition.kind) :
    Condition.read condition.toRecord = .ok condition := by
  simp [Condition.read, Condition.toRecord, partOr, part, firstNamed, Json.get?, Ordered.get?,
    readOpenName, known, optional_readText_ofOption, Checked.under, Checked.map, Checked.also]

/-- The record of an action whose names are known where they can be is read as what is stored of the
action, and no fresh id is used. -/
theorem read_toRecord_of_isKnown (supply : IdSupply) {a : Action} (known : a.IsKnown) :
    read supply a.toRecord = (.ok a.stored, supply) := by
  simp [read, toRecord, needsId, readWith, readFields, readText, readData, partOr, part,
    firstNamed, Json.get?, Ordered.get?, readOpenName, Record.readWhole, readTruth, known.kind,
    readCondition_toRecord known.condition, optional_readText_ofOption, Checked.under,
    Checked.map, Checked.also, stored]

/-- The record of an action is read as what is stored of the action, and no fresh id is used. -/
theorem read_toRecord (supply : IdSupply) {a : Action} (valid : a.IsValid) :
    read supply a.toRecord = (.ok a.stored, supply) :=
  read_toRecord_of_isKnown supply ⟨valid.kind, valid.condition⟩

/-- Actions of which each is read as something by itself are read as that in a list. -/
theorem readList_map {write : Action → Json} {kept : Action → Action} (supply : IdSupply)
    (place : Nat) {actions : List Action}
    (each : ∀ a ∈ actions, read supply (write a) = (.ok (kept a), supply)) :
    readList supply place (actions.map write) = (.ok (actions.map kept), supply) := by
  induction actions generalizing place with
  | nil => rfl
  | cons a rest inductionHypothesis =>
    obtain ⟨first, later⟩ := List.forall_mem_cons.mp each
    simp only [List.map_cons, readList, first, inductionHypothesis (place + 1) later,
      Checked.under, Checked.map, Checked.also]

/-- The records of a list of actions are read as what is stored of the actions. -/
theorem readList_toRecord (supply : IdSupply) (place : Nat) {actions : List Action}
    (valid : ∀ a ∈ actions, a.IsValid) :
    readList supply place (actions.map toRecord) = (.ok (actions.map stored), supply) :=
  readList_map supply place fun a member => read_toRecord supply (valid a member)

theorem readUntilFault_toRecord (supply : IdSupply) {actions : List Action}
    (valid : ∀ a ∈ actions, a.IsValid) :
    readUntilFault supply (actions.map toRecord) = (.ok (actions.map stored), supply) := by
  induction actions with
  | nil => rfl
  | cons a rest inductionHypothesis =>
    obtain ⟨first, later⟩ := List.forall_mem_cons.mp valid
    simp only [List.map_cons, readUntilFault, read_toRecord supply first,
      inductionHypothesis later]

/-- Reading some records until a fault reads the first, and then the rest. -/
theorem readUntilFault_cons_eq_ok {supply after : IdSupply} {record : Json} {rest : List Json}
    {actions : List Action} (ok : readUntilFault supply (record :: rest) = (.ok actions, after)) :
    ∃ first between later, read supply record = (.ok first, between) ∧
      readUntilFault between rest = (.ok later, after) ∧ actions = first :: later := by
  rw [readUntilFault] at ok
  split at ok
  · cases ok
  · next first between readFirst =>
    split at ok
    · cases ok
    · next later _ readLater =>
      obtain ⟨same, rfl⟩ := Prod.mk.inj ok
      exact ⟨first, between, later, readFirst, readLater, (Checked.ok.inj same).symm⟩

/-- Every action that has been read came of one of the records. -/
theorem exists_record_of_readUntilFault {supply after : IdSupply} {records : List Json}
    {actions : List Action} (ok : readUntilFault supply records = (.ok actions, after)) :
    ∀ a ∈ actions, ∃ record ∈ records, ∃ before after, read before record = (.ok a, after) := by
  induction records generalizing supply after actions with
  | nil =>
    obtain rfl := Checked.ok.inj (congrArg Prod.fst ok)
    simp
  | cons record rest inductionHypothesis =>
    obtain ⟨first, _, later, readFirst, readLater, rfl⟩ := readUntilFault_cons_eq_ok ok
    refine List.forall_mem_cons.mpr ⟨⟨record, by simp, _, _, readFirst⟩, fun a member => ?_⟩
    obtain ⟨source, inRest, read⟩ := inductionHypothesis readLater a member
    exact ⟨source, List.mem_cons_of_mem _ inRest, read⟩

end Action
end TurnScript
