import TurnScript.Proofs.Script.Records

/-!
# Values read back from what is written of them

Whatever a check has accepted, under either name of a part and in any lenient spelling, is read
again from its record and from its values by part, as the same value. So a record that has been
brought into its usual form stays in it.

Data of any depth is accepted, but only data that is not nested too deep is written in a record. The
values by part have no such limit.
-/

namespace TurnScript

open Record

namespace Record

variable {α : Type}

/-- A value that may be null is read back if it is when there is one. -/
theorem optional_ofOption {read : Json → Checked α} {write : α → Json}
    (same : ∀ value, read (write value) = .ok value) (present : ∀ value, write value ≠ .null)
    (option : Option α) : optional read (.ofOption write option) = .ok option := by
  cases option with
  | none => rfl
  | some value =>
    rw [Json.ofOption, optional, same value]
    · rfl
    · exact present value

namespace Checked

/-- Items of which each is read back by itself are read back in a list. -/
theorem items_map {read : Json → Checked α} {write : α → Json} (place : Nat) {values : List α}
    (same : ∀ value ∈ values, read (write value) = .ok value) :
    items read place (values.map write) = .ok values := by
  induction values generalizing place with
  | nil => rfl
  | cons value rest inductionHypothesis =>
    obtain ⟨first, later⟩ := List.forall_mem_cons.mp same
    simp only [List.map_cons, items, first, inductionHypothesis (place + 1) later, under, map, also]

/-- Every item of a list that has been read came of one that was read by itself. -/
theorem exists_of_items_eq_ok {read : Json → Checked α} {place : Nat} {records : List Json}
    {values : List α} (ok : items read place records = .ok values) :
    ∀ value ∈ values, ∃ record ∈ records, read record = .ok value := by
  induction records generalizing place values with
  | nil =>
    obtain rfl := Checked.ok.inj ok
    simp
  | cons record rest inductionHypothesis =>
    simp only [items, also_eq_ok, map_eq_ok, under_eq_ok] at ok
    obtain ⟨_, later, ⟨first, readFirst, rfl⟩, readLater, rfl⟩ := ok
    refine List.forall_mem_cons.mpr ⟨⟨record, by simp, readFirst⟩, fun value member => ?_⟩
    obtain ⟨source, inRest, read⟩ := inductionHypothesis readLater value member
    exact ⟨source, List.mem_cons_of_mem _ inRest, read⟩

end Checked
end Record

/-- Whatever a reading accepts is accepted again, as the same value, from what is written of it. -/
def ReadsBack {α : Type} (read : Json → Checked α) (write : α → Json) : Prop :=
  ∀ record value, read record = .ok value → read (write value) = .ok value

/-- What is written of a value that has been read is in its usual form. -/
theorem ReadsBack.idempotent {α : Type} {read : Json → Checked α} {write : α → Json}
    (readsBack : ReadsBack read write) {record usual : Json}
    (normal : (read record).map write = .ok usual) : (read usual).map write = .ok usual := by
  obtain ⟨value, accepted, rfl⟩ := Checked.map_eq_ok.mp normal
  rw [readsBack record value accepted]
  rfl

theorem readText_str (text : String) : readText (.str text) = .ok text := rfl

theorem readWhole_int (n : Int) : Record.readWhole (.int n) = .ok n := rfl

theorem readTruth_bool (b : Bool) : readTruth (.bool b) = .ok b := rfl

theorem Condition.readsBack : ReadsBack Condition.read Condition.toRecord :=
  fun _ _ accepted => Action.readCondition_toRecord (Action.known_of_readCondition accepted)

namespace Position

theorem read_toRecord (p : Position) : read p.toRecord = .ok p := by
  simp [read, toRecord, required, part, firstNamed, Json.get?, Ordered.get?, Record.readWhole,
    Checked.under, Checked.map, Checked.also]

end Position

namespace MovementPayload

/-- A movement is read back under both kinds of names. -/
theorem readsBack : ReadsBack read toRecord ∧ ReadsBack read toParts := by
  have waypoints (p : MovementPayload) :
      Record.readList Position.read (.arr (p.waypoints.map Position.toRecord)) =
        .ok p.waypoints :=
    Checked.items_map 0 fun place _ => place.read_toRecord
  have targetId (p : MovementPayload) : optional readText (.ofOption .str p.targetId) = _ :=
    optional_ofOption readText_str (by simp) p.targetId
  have maxDistance (p : MovementPayload) :
      optional Record.readWhole (.ofOption .int p.maxDistance) = _ :=
    optional_ofOption readWhole_int (by simp) p.maxDistance
  constructor <;> intro _ p _ <;>
    simp [read, toRecord, toParts, named, readFields, partOr, part, firstNamed, Json.get?,
      Ordered.get?, waypoints, targetId, maxDistance, Record.readName, readTruth, Checked.under,
      Checked.map, Checked.also]

end MovementPayload

namespace AttackPayload

/-- The priorities of an attack that has been read are known where they can be. -/
theorem known_of_read {record : Json} {p : AttackPayload} (ok : read record = .ok p) :
    ∀ priority ∈ p.priorities, TargetPriority.ofName priority.name = priority := by
  unfold read at ok
  split at ok
  · next fields =>
    simp only [readFields, Checked.also_eq_ok, Checked.map_eq_ok] at ok
    obtain ⟨_, _, ⟨_, _, ⟨_, _, ⟨_, _, ⟨_, _, rfl⟩, priorities, rfl⟩, _, rfl⟩, _, rfl⟩, _,
      rfl⟩ := ok
    rcases of_partOr_eq_ok priorities with ⟨_, usual⟩ | ⟨_, listed, _, accepted⟩
    · simp only [usual]
      decide
    · unfold Record.readList at accepted
      split at accepted
      · intro priority member
        obtain ⟨_, _, named⟩ := Checked.exists_of_items_eq_ok accepted priority member
        obtain ⟨text, rfl⟩ := Action.of_readOpenName_eq_ok named
        rw [TargetPriority.name_ofName]
      · cases accepted
  · cases ok

/-- An attack is read back under both kinds of names. -/
theorem readsBack : ReadsBack read toRecord ∧ ReadsBack read toParts := by
  have itemId (p : AttackPayload) : optional readText (.ofOption .str p.itemId) = _ :=
    optional_ofOption readText_str (by simp) p.itemId
  have targetId (p : AttackPayload) : optional readText (.ofOption .str p.targetId) = _ :=
    optional_ofOption readText_str (by simp) p.targetId
  have override (p : AttackPayload) :
      optional readTruth (.ofOption .bool p.advantageOverride) = _ :=
    optional_ofOption readTruth_bool (by simp) p.advantageOverride
  have priorities {p : AttackPayload}
      (known : ∀ priority ∈ p.priorities, TargetPriority.ofName priority.name = priority) :
      Record.readList (readOpenName TargetPriority.ofName)
        (.arr (p.priorities.map fun priority => .str priority.name)) = .ok p.priorities :=
    Checked.items_map 0 fun priority member => by rw [readOpenName, known priority member]
  constructor <;> intro record p accepted <;>
    simp [read, toRecord, toParts, named, readFields, partOr, part, firstNamed, Json.get?,
      Ordered.get?, itemId, targetId, override, priorities (known_of_read accepted), readTruth,
      Checked.under, Checked.map, Checked.also]

end AttackPayload

namespace ItemPayload

/-- An item use is read back under both kinds of names. -/
theorem readsBack : ReadsBack read toRecord ∧ ReadsBack read toParts := by
  have itemId (p : ItemPayload) : optional readText (.ofOption .str p.itemId) = _ :=
    optional_ofOption readText_str (by simp) p.itemId
  constructor <;> intro _ p _ <;>
    simp [read, toRecord, toParts, readFields, partOr, part, firstNamed, Json.get?, Ordered.get?,
      itemId, Checked.under, Checked.map]

end ItemPayload

/-! ### Actions and queues

Reading these may use up a fresh id, so it is read back that a value is the same whichever ids are
at hand, and that none of them is used up. -/

/-- Whatever a reading accepts that may be written is written, and what is written is accepted
again, as the same value, without a fresh id. -/
def ReadsBackFresh {α : Type} (read : IdSupply → Json → Checked α × IdSupply)
    (mayBeWritten : α → Prop) (write : α → Option Json) : Prop :=
  ∀ supply record value after, read supply record = (.ok value, after) → mayBeWritten value →
    ∃ written, write value = some written ∧ ∀ later, read later written = (.ok value, later)

namespace Action

/-- Whether the data of an action is not nested too deep for a record. -/
def isShallow (a : Action) : Bool :=
  Json.depthFields a.data ≤ depthLimit

/-- The record of an action, unless its data is nested too deep. -/
def record? (a : Action) : Option Json :=
  if a.isShallow then some a.toRecord else none

theorem isKnown_of_read {supply after : IdSupply} {record : Json} {a : Action}
    (ok : read supply record = (.ok a, after)) : a.IsKnown := by
  obtain ⟨_, _, _, passed⟩ := of_read_eq_ok ok
  exact isKnown_of_readFields passed

/-- The values of an action by part are read as the action. -/
theorem read_parts (supply : IdSupply) {a : Action}
    (known : a.IsKnown) : read supply (.obj a.parts) = (.ok a, supply) := by
  simp [read, parts, needsId, readWith, readFields, readText, readData, partOr, part, firstNamed,
    Json.get?, Ordered.get?, readOpenName, Record.readWhole, readTruth, known.kind,
    readCondition_toRecord known.condition, optional_readText_ofOption, Checked.under, Checked.map,
    Checked.also]

theorem readsBack : ReadsBackFresh read (fun a => a.IsFinite ∧ a.isShallow = true) record? ∧
    ReadsBackFresh read (fun _ => True) (fun a => some (.obj a.parts)) := by
  constructor <;> intro supply record a after accepted fits <;>
    have known := isKnown_of_read accepted
  · refine ⟨a.toRecord, by rw [record?, if_pos fits.2], fun later => ?_⟩
    rw [read_toRecord_of_isKnown later known, stored_of_isFinite fits.1]
  · exact ⟨_, rfl, fun later => read_parts later known⟩

/-- Every action of a list that has been read came of one of its records. -/
theorem exists_record_of_readList {supply after : IdSupply} {place : Nat} {records : List Json}
    {actions : List Action} (ok : readList supply place records = (.ok actions, after)) :
    ∀ a ∈ actions, ∃ record before after, read before record = (.ok a, after) := by
  induction records generalizing supply place after actions with
  | nil =>
    obtain rfl := Checked.ok.inj (congrArg Prod.fst ok)
    simp
  | cons record rest inductionHypothesis =>
    simp only [readList, Prod.mk.injEq, Checked.also_eq_ok, Checked.map_eq_ok,
      Checked.under_eq_ok] at ok
    obtain ⟨⟨_, later, ⟨first, readFirst, rfl⟩, readLater, rfl⟩, _⟩ := ok
    refine List.forall_mem_cons.mpr ⟨⟨record, supply, _, Prod.ext readFirst rfl⟩, ?_⟩
    exact inductionHypothesis (Prod.ext readLater rfl)

/-- The names in the actions of a list that has been read are known where they can be. -/
theorem isKnown_of_readAll {supply after : IdSupply} {record : Json} {actions : List Action}
    (ok : readAll supply record = (.ok actions, after)) :
    ∀ a ∈ actions, a.IsKnown := by
  unfold readAll at ok
  split at ok
  · intro a member
    obtain ⟨_, _, _, accepted⟩ := exists_record_of_readList ok a member
    exact isKnown_of_read accepted
  · cases ok

variable {actions : List Action}

/-- The records of known and finite actions are read as the actions. -/
theorem readAll_toRecord (supply : IdSupply) (known : ∀ a ∈ actions, a.IsKnown)
    (finite : ∀ a ∈ actions, a.IsFinite) :
    readAll supply (.arr (actions.map toRecord)) = (.ok actions, supply) := by
  have each : ∀ a ∈ actions, read supply a.toRecord = (.ok a, supply) := fun a member => by
    rw [read_toRecord_of_isKnown supply (known a member), stored_of_isFinite (finite a member)]
  simpa [readAll] using readList_map supply 0 each

theorem readAll_parts (supply : IdSupply) (known : ∀ a ∈ actions, a.IsKnown) :
    readAll supply (.arr (actions.map fun a => .obj a.parts)) = (.ok actions, supply) := by
  have each : ∀ a ∈ actions, read supply (.obj a.parts) = (.ok a, supply) :=
    fun a member => read_parts supply (known a member)
  simpa [readAll] using readList_map supply 0 each

end Action

namespace Envelope

/-- The record of a stored queue, unless some data in it is nested too deep. -/
def record? (e : Envelope) : Option Json :=
  if e.actions.all Action.isShallow then some e.toRecord else none

/-- The values of a stored queue by part. -/
def toParts (e : Envelope) : Json :=
  .obj [("version", .str e.version), ("enabled", .bool e.enabled),
    ("actions", .arr (e.actions.map fun a => .obj a.parts))]

/-- The names in the actions of a stored queue that has been read are known where they can be. -/
theorem isKnown_of_read {supply after : IdSupply} {record : Json} {e : Envelope}
    (ok : read supply record = (.ok e, after)) :
    ∀ a ∈ e.actions, a.IsKnown := by
  unfold read at ok
  split at ok
  · next fields =>
    have passed := congrArg Prod.fst ok
    simp only [Checked.also_eq_ok, Checked.map_eq_ok] at passed
    obtain ⟨_, _, ⟨_, _, ⟨_, _, rfl⟩, _, rfl⟩, listed, rfl⟩ := passed
    split at listed
    · cases listed
      simp
    · rw [Checked.under_eq_ok] at listed
      exact Action.isKnown_of_readAll (Prod.ext listed rfl)
  · cases ok

theorem readsBack :
    ReadsBackFresh read (fun e => ∀ a ∈ e.actions, a.IsFinite ∧ a.isShallow = true) record? ∧
      ReadsBackFresh read (fun _ => True) (fun e => some e.toParts) := by
  constructor <;> intro supply record e after accepted fits <;>
    have known := isKnown_of_read accepted
  · refine ⟨e.toRecord, ?_, fun later => ?_⟩
    · rw [record?, if_pos (List.all_eq_true.mpr fun a member => (fits a member).2)]
    · have actions := Action.readAll_toRecord later known fun a member => (fits a member).1
      simp [read, toRecord, partOr, part, firstNamed, Json.get?, Ordered.get?, readText, readTruth,
        actions, Checked.under, Checked.map, Checked.also]
  · refine ⟨_, rfl, fun later => ?_⟩
    have actions := Action.readAll_parts later known
    simp [read, toParts, partOr, part, firstNamed, Json.get?, Ordered.get?, readText, readTruth,
      actions, Checked.under, Checked.map, Checked.also]

end Envelope

namespace Export

/-- The record of an exported queue, unless some data in it is nested too deep. -/
def record? (e : Export) : Option Json :=
  if e.actions.all Action.isShallow then some e.toRecord else none

/-- The values of an exported queue by part. -/
def toParts (e : Export) : Json :=
  .obj [("version", .str e.version), ("token_name", .ofOption .str e.tokenName),
    ("actions", .arr (e.actions.map fun a => .obj a.parts))]

/-- The names in the actions of an exported queue that has been read are known where they can
be. -/
theorem isKnown_of_read {supply after : IdSupply} {record : Json} {e : Export}
    (ok : read supply record = (.ok e, after)) :
    ∀ a ∈ e.actions, a.IsKnown := by
  unfold read at ok
  split at ok
  · next fields =>
    have passed := congrArg Prod.fst ok
    simp only [Checked.also_eq_ok, Checked.map_eq_ok] at passed
    obtain ⟨_, _, ⟨_, _, ⟨_, _, rfl⟩, _, rfl⟩, listed, rfl⟩ := passed
    split at listed
    · cases listed
    · rw [Checked.under_eq_ok] at listed
      exact Action.isKnown_of_readAll (Prod.ext listed rfl)
  · cases ok

theorem readsBack :
    ReadsBackFresh read (fun e => ∀ a ∈ e.actions, a.IsFinite ∧ a.isShallow = true) record? ∧
      ReadsBackFresh read (fun _ => True) (fun e => some e.toParts) := by
  constructor <;> intro supply record e after accepted fits <;>
    have known := isKnown_of_read accepted
  · refine ⟨e.toRecord, ?_, fun later => ?_⟩
    · rw [record?, if_pos (List.all_eq_true.mpr fun a member => (fits a member).2)]
    · have actions := Action.readAll_toRecord later known fun a member => (fits a member).1
      simp [read, toRecord, partOr, part, firstNamed, Json.get?, Ordered.get?, readText,
        Action.optional_readText_ofOption, actions, Checked.under, Checked.map, Checked.also]
  · refine ⟨_, rfl, fun later => ?_⟩
    have actions := Action.readAll_parts later known
    simp [read, toParts, partOr, part, firstNamed, Json.get?, Ordered.get?, readText,
      Action.optional_readText_ofOption, actions, Checked.under, Checked.map, Checked.also]

end Export

/-- Every record that is accepted, of whichever part of a script, is read back: from the record that
is written for its value and from the values by part, which are the same for a condition. Where an
action is in it, the record is written if the data is finite and not nested too deep; the values by
part are read back in any case. -/
theorem records_read_back :
    ReadsBack Condition.read Condition.toRecord ∧
    (ReadsBack MovementPayload.read MovementPayload.toRecord ∧
      ReadsBack MovementPayload.read MovementPayload.toParts) ∧
    (ReadsBack AttackPayload.read AttackPayload.toRecord ∧
      ReadsBack AttackPayload.read AttackPayload.toParts) ∧
    (ReadsBack ItemPayload.read ItemPayload.toRecord ∧
      ReadsBack ItemPayload.read ItemPayload.toParts) ∧
    (ReadsBackFresh Action.read (fun a => a.IsFinite ∧ a.isShallow = true) Action.record? ∧
      ReadsBackFresh Action.read (fun _ => True) (fun a => some (.obj a.parts))) ∧
    (ReadsBackFresh Envelope.read (fun e => ∀ a ∈ e.actions, a.IsFinite ∧ a.isShallow = true)
        Envelope.record? ∧
      ReadsBackFresh Envelope.read (fun _ => True) (fun e => some e.toParts)) ∧
    ReadsBackFresh Export.read (fun e => ∀ a ∈ e.actions, a.IsFinite ∧ a.isShallow = true)
        Export.record? ∧
      ReadsBackFresh Export.read (fun _ => True) (fun e => some e.toParts) :=
  ⟨Condition.readsBack, MovementPayload.readsBack, AttackPayload.readsBack, ItemPayload.readsBack,
    Action.readsBack, Envelope.readsBack, Export.readsBack⟩

/-- An action in a lenient spelling, of a kind that is not known. -/
def danceRecord : Json :=
  .obj [("id", .str "a"), ("type", .str "dance"), ("order", .str " 03.0"), ("enabled", .str "Yes"),
    ("payload", .obj [("steps", .arr [.int 1, .null])]), ("on_success", .str "b")]

/-- The action that it spells. -/
def dance : Action :=
  { id := "a", kind := .other "dance", order := 3, data := [("steps", .arr [.int 1, .null])],
    onSuccess := some "b" }

theorem records_read_back_dance :
    Action.read {} danceRecord = (.ok dance, {}) ∧
      ∃ written, dance.record? = some written ∧ Action.read {} written = (.ok dance, {}) := by
  have accepted : Action.read {} danceRecord = (.ok dance, {}) := by decide +kernel
  have finite : dance.IsFinite := by
    simp [Action.IsFinite, dance, Json.IsFiniteFields, Json.IsFinite, Json.IsFiniteItems]
  obtain ⟨written, same, later⟩ := records_read_back.2.2.2.2.1.1 {} danceRecord dance {} accepted
    ⟨finite, by decide +kernel⟩
  exact ⟨accepted, written, same, later {}⟩

/-- Lists in lists, around an empty one. -/
def nested : Nat → Json
  | 0 => .arr []
  | levels + 1 => .arr [nested levels]

theorem depth_nested (levels : Nat) : (nested levels).depth = levels + 1 := by
  induction levels with
  | zero => rfl
  | succ levels inductionHypothesis =>
    simp [nested, Json.depth, Json.depthItems, inductionHypothesis]

theorem isFinite_nested (levels : Nat) : (nested levels).IsFinite := by
  induction levels with
  | zero => trivial
  | succ levels inductionHypothesis => exact ⟨inductionHypothesis, trivial⟩

/-- A record with data that is nested too deep is accepted, and there is no record of the action
that could be read back. -/
theorem deep_data_has_no_record :
    ∃ a, Action.read {} (.obj [("id", .str "deep"), ("data", .obj [("x", nested 255)])]) =
        (.ok a, {}) ∧ a.IsFinite ∧ a.record? = none := by
  refine ⟨{ id := "deep", data := [("x", nested 255)] }, rfl, ⟨isFinite_nested 255, trivial⟩, ?_⟩
  simp [Action.record?, Action.isShallow, Json.depthFields, depth_nested, Action.depthLimit]

end TurnScript
