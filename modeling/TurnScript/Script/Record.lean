import TurnScript.Record.Lenient
import TurnScript.Script.Action

/-!
# Records of scripts

Every part of a script has a record: `toRecord` writes it, and `read` accepts it together
with lenient spellings of the values and with either of two names for a part. The name that
records are written with wins where both are present. Names that are not known are passed
over. An action without an id is given a fresh one when it is read.
-/

namespace TurnScript

open Record

/-- The source of fresh ids: how many were made. -/
structure IdSupply where
  made : Nat := 0
  deriving Repr, DecidableEq, Inhabited

/-- The id with a number: sixteen hexadecimal digits. -/
def IdSupply.idOf (number : Nat) : String :=
  let digits := Nat.toDigits 16 number
  String.ofList (List.replicate (16 - digits.length) '0' ++ digits)

/-- A fresh id. -/
def IdSupply.fresh (supply : IdSupply) : String × IdSupply :=
  (idOf (supply.made + 1), ⟨supply.made + 1⟩)

/-- Fresh ids, one for each item of a list. -/
def IdSupply.freshFor {α : Type} (supply : IdSupply) : List α → List String × IdSupply
  | [] => ([], supply)
  | _ :: rest =>
    let (id, supply) := supply.fresh
    let (ids, supply) := supply.freshFor rest
    (id :: ids, supply)

/-- A text or null. -/
def Json.ofOption {α : Type} (write : α → Json) : Option α → Json
  | none => .null
  | some value => write value

namespace Position

/-- The record of a square. -/
def toRecord (p : Position) : Json :=
  .obj [("x", .int p.x), ("y", .int p.y)]

/-- Read a square. -/
def read : Json → Checked Position
  | .obj fields =>
    ((required fields ["x"] readWhole).map Position.mk).also (required fields ["y"] readWhole)
  | _ => .refuse .notPoint

end Position

namespace Condition

/-- The record of a condition. -/
def toRecord (c : Condition) : Json :=
  .obj [("type", .str c.kind.name), ("value", .ofOption .str c.value)]

/-- Read a condition. -/
def read : Json → Checked Condition
  | .obj fields =>
    ((partOr fields ["type"] ConditionKind.always (readOpenName .ofName)).map Condition.mk).also
      (partOr fields ["value"] none (optional readText))
  | _ => .refuse .notObject

end Condition

namespace MovementPayload

/-- The values of a movement under given names of its parts. -/
def named (p : MovementPayload) (target targetId maxDistance avoid : String) : Json :=
  .obj [("waypoints", .arr (p.waypoints.map Position.toRecord)),
    (target, .str p.target.name),
    (targetId, .ofOption .str p.targetId),
    (maxDistance, .ofOption .int p.maxDistance),
    (avoid, .bool p.avoidOpportunityAttacks)]

/-- The record of a movement. -/
def toRecord (p : MovementPayload) : Json :=
  p.named "targetType" "targetId" "maxDistance" "avoidOpportunityAttacks"

/-- The values of a movement by part. -/
def toParts (p : MovementPayload) : Json :=
  p.named "target_type" "target_id" "max_distance" "avoid_opportunity_attacks"

/-- Read a movement from fields. -/
def readFields (fields : Fields) : Checked MovementPayload :=
  (partOr fields ["waypoints"] [] (readList Position.read)).map MovementPayload.mk
    |>.also (partOr fields ["targetType", "target_type"] .waypoint
        (Record.readName MovementTarget.ofName?))
    |>.also (partOr fields ["targetId", "target_id"] none (optional readText))
    |>.also (partOr fields ["maxDistance", "max_distance"] none (optional Record.readWhole))
    |>.also (partOr fields ["avoidOpportunityAttacks", "avoid_opportunity_attacks"] true readTruth)

/-- Read a movement. -/
def read : Json → Checked MovementPayload
  | .obj fields => readFields fields
  | _ => .refuse .notObject

end MovementPayload

namespace AttackPayload

/-- The values of an attack under given names of its parts. -/
def named (p : AttackPayload) (item priorities target override consume : String) : Json :=
  .obj [(item, .ofOption .str p.itemId),
    (priorities, .arr (p.priorities.map fun priority => .str priority.name)),
    (target, .ofOption .str p.targetId),
    (override, .ofOption .bool p.advantageOverride),
    (consume, .bool p.consumeResource)]

/-- The record of an attack. -/
def toRecord (p : AttackPayload) : Json :=
  p.named "itemUuid" "targetPriority" "targetId" "advantageOverride" "consumeResource"

/-- The values of an attack by part. -/
def toParts (p : AttackPayload) : Json :=
  p.named "item_uuid" "target_priority" "target_id" "advantage_override" "consume_resource"

/-- Read an attack from fields. -/
def readFields (fields : Fields) : Checked AttackPayload :=
  (partOr fields ["itemUuid", "item_uuid"] none (optional readText)).map AttackPayload.mk
    |>.also (partOr fields ["targetPriority", "target_priority"] [.nearest]
        (readList (readOpenName TargetPriority.ofName)))
    |>.also (partOr fields ["targetId", "target_id"] none (optional readText))
    |>.also (partOr fields ["advantageOverride", "advantage_override"] none (optional readTruth))
    |>.also (partOr fields ["consumeResource", "consume_resource"] true readTruth)

/-- Read an attack. -/
def read : Json → Checked AttackPayload
  | .obj fields => readFields fields
  | _ => .refuse .notObject

end AttackPayload

namespace ItemPayload

/-- The record of an item use. -/
def toRecord (p : ItemPayload) : Json :=
  .obj [("itemUuid", .ofOption .str p.itemId)]

/-- The values of an item use by part. -/
def toParts (p : ItemPayload) : Json :=
  .obj [("item_uuid", .ofOption .str p.itemId)]

/-- Read an item use from fields. -/
def readFields (fields : Fields) : Checked ItemPayload :=
  (partOr fields ["itemUuid", "item_uuid"] none (optional readText)).map ItemPayload.mk

/-- Read an item use. -/
def read : Json → Checked ItemPayload
  | .obj fields => readFields fields
  | _ => .refuse .notObject

end ItemPayload

namespace Action

/-- The record of an action. Floats in its data that are not finite are stored as null. -/
def toRecord (a : Action) : Json :=
  .obj [("id", .str a.id), ("type", .str a.kind.name), ("order", .int a.order),
    ("enabled", .bool a.enabled), ("name", .str a.name), ("description", .str a.description),
    ("conditions", a.condition.toRecord), ("data", .obj (Json.storableFields a.data)),
    ("onSuccess", .ofOption .str a.onSuccess), ("onFailure", .ofOption .str a.onFailure)]

/-- The greatest depth of a value that is written in a record's data. -/
def depthLimit : Nat := 255

/-- Whether the record of an action can be written: its data is not nested too deep, and its
numbers are within the digit limit. -/
def isWritable (a : Action) : Bool :=
  Json.depthFields a.data ≤ depthLimit && Json.isWritableFields a.data && Text.isWritable a.order

/-- The values of an action by part, as an edit of single parts starts from them. -/
def parts (a : Action) : Fields :=
  [("id", .str a.id), ("type", .str a.kind.name), ("order", .int a.order),
    ("enabled", .bool a.enabled), ("name", .str a.name), ("description", .str a.description),
    ("condition", a.condition.toRecord), ("payload", .obj a.data),
    ("on_success", .ofOption .str a.onSuccess), ("on_failure", .ofOption .str a.onFailure)]

/-- Read the data of an action. -/
def readData : Json → Checked Fields
  | .obj fields => .ok fields
  | _ => .refuse .notDictionary

/-- Read an action from fields; `fresh` is its id if the fields have none. -/
def readFields (fresh : String) (fields : Fields) : Checked Action :=
  (partOr fields ["id"] fresh readText).map Action.mk
    |>.also (partOr fields ["type"] .movement (readOpenName ActionKind.ofName))
    |>.also (partOr fields ["order"] 0 Record.readWhole)
    |>.also (partOr fields ["enabled"] true readTruth)
    |>.also (partOr fields ["name"] "Untitled Action" readText)
    |>.also (partOr fields ["description"] "" readText)
    |>.also (partOr fields ["conditions", "condition"] {} Condition.read)
    |>.also (partOr fields ["data", "payload"] [] readData)
    |>.also (partOr fields ["onSuccess", "on_success"] none (optional readText))
    |>.also (partOr fields ["onFailure", "on_failure"] none (optional readText))

/-- Read an action with a fresh id at hand. -/
def readWith (fresh : String) : Json → Checked Action
  | .obj fields => readFields fresh fields
  | _ => .refuse .notObject

/-- Whether reading a record uses up a fresh id. -/
def needsId : Json → Bool
  | .obj fields => (Json.get? fields "id").isNone
  | _ => false

/-- Read an action, taking a fresh id if the record has none. -/
def read (supply : IdSupply) (record : Json) : Checked Action × IdSupply :=
  if needsId record then (readWith supply.fresh.1 record, supply.fresh.2)
  else (readWith "" record, supply)

/-- Read actions in order, each seen from its place. Reading goes on after a fault, and so do
the fresh ids. -/
def readList (supply : IdSupply) (place : Nat) : List Json → Checked (List Action) × IdSupply
  | [] => (.ok [], supply)
  | record :: rest =>
    let (action, supply) := read supply record
    let (actions, supply) := readList supply (place + 1) rest
    (((action.under (.index place)).map List.cons).also actions, supply)

/-- Read actions in order up to the first refusal, whose faults are seen from the refused
record. -/
def readUntilFault (supply : IdSupply) : List Json → Checked (List Action) × IdSupply
  | [] => (.ok [], supply)
  | record :: rest =>
    match read supply record with
    | (.refused faults, supply) => (.refused faults, supply)
    | (.ok action, supply) =>
      match readUntilFault supply rest with
      | (.refused faults, supply) => (.refused faults, supply)
      | (.ok actions, supply) => (.ok (action :: actions), supply)

/-- Read the value that holds a list of actions. -/
def readAll (supply : IdSupply) : Json → Checked (List Action) × IdSupply
  | .arr records => readList supply 0 records
  | _ => (.refuse .notList, supply)

/-- The action as one reads its stored record back: nothing but floats that are not finite
changes. -/
def stored (a : Action) : Action :=
  { a with data := Json.storableFields a.data }

end Action

namespace Outcome

/-- Read an outcome. -/
def read : Json → Checked Outcome
  | .obj fields =>
    (required fields ["success"] readTruth).map Outcome.mk
      |>.also (partOr fields ["kind"] .info (Record.readName OutcomeKind.ofName?))
      |>.also (partOr fields ["hit"] none (optional readTruth))
      |>.also (partOr fields ["damage"] none (optional Record.readWhole))
      |>.also (partOr fields ["critical"] none (optional readTruth))
      |>.also (partOr fields ["saved"] none (optional readTruth))
      |>.also (partOr fields ["message"] "" readText)
      |>.also (partOr fields ["error_kind"] none (optional (Record.readName ErrorKind.ofName?)))
  | _ => .refuse .notObject

/-- The record of an outcome. -/
def toRecord (o : Outcome) : Json :=
  .obj [("success", .bool o.success), ("kind", .str o.kind.name), ("hit", .ofOption .bool o.hit),
    ("damage", .ofOption .int o.damage), ("critical", .ofOption .bool o.critical),
    ("saved", .ofOption .bool o.saved), ("message", .str o.message),
    ("error_kind", .ofOption (fun kind : ErrorKind => .str kind.name) o.errorKind)]

end Outcome

namespace Envelope

/-- The record of a stored queue. -/
def toRecord (e : Envelope) : Json :=
  .obj [("version", .str e.version), ("enabled", .bool e.enabled),
    ("actions", .arr (e.actions.map Action.toRecord))]

/-- Whether the record of a stored queue can be written. -/
def isWritable (e : Envelope) : Bool :=
  e.actions.all Action.isWritable

/-- Read a stored queue. -/
def read (supply : IdSupply) : Json → Checked Envelope × IdSupply
  | .obj fields =>
    let (actions, supply) := match Json.get? fields "actions" with
      | none => (Checked.ok [], supply)
      | some value =>
        let (actions, supply) := Action.readAll supply value
        (actions.under (.name "actions"), supply)
    ((partOr fields ["version"] queueVersion readText).map Envelope.mk
      |>.also (partOr fields ["enabled"] true readTruth)
      |>.also actions, supply)
  | _ => (.refuse .notObject, supply)

end Envelope

namespace Export

/-- The record of an exported queue. -/
def toRecord (e : Export) : Json :=
  .obj [("version", .str e.version), ("tokenName", .ofOption .str e.tokenName),
    ("actions", .arr (e.actions.map Action.toRecord))]

/-- Whether the record of an exported queue can be written. -/
def isWritable (e : Export) : Bool :=
  e.actions.all Action.isWritable

/-- Read an exported queue. -/
def read (supply : IdSupply) : Json → Checked Export × IdSupply
  | .obj fields =>
    let (actions, supply) := match Json.get? fields "actions" with
      | none => ((Checked.refuse .missing).under (.name "actions"), supply)
      | some value =>
        let (actions, supply) := Action.readAll supply value
        (actions.under (.name "actions"), supply)
    ((partOr fields ["version"] queueVersion readText).map Export.mk
      |>.also (partOr fields ["tokenName", "token_name"] none (optional readText))
      |>.also actions, supply)
  | _ => (.refuse .notObject, supply)

end Export
end TurnScript
