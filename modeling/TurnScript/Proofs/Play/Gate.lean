import TurnScript.Proofs.Play.Targets
import TurnScript.Proofs.Script.Records

/-!
# The gate of an attack

The condition that a target is in range looks at the data of an action as it is written, and asks
for any hostile within the reach of the item. The attack reads the same data, and picks a single
hostile. Where the data names its item under one of the two names only, both mean the same item;
and where the attack goes to the nearest hostile, some hostile is within reach exactly if that one
is. So the gate is open exactly if the attack has a target that it reaches.
-/

namespace TurnScript

open Record

/-! ## The item that data names -/

/-- A name that has been read is a text, or null for none. -/
theorem of_optional_readText_eq_ok {value : Json} {text : Option String}
    (read : optional readText value = .ok text) : value = .ofOption .str text := by
  cases value with
  | null =>
    cases read
    rfl
  | str name =>
    cases read
    rfl
  | bool _ | int _ | float _ | arr _ | obj _ => cases read

namespace AttackPayload

variable {data : Fields} {payload : AttackPayload}

theorem itemId_of_readFields (read : readFields data = .ok payload) :
    partOr data ["itemUuid", "item_uuid"] none (optional readText) = .ok payload.itemId := by
  simp only [readFields, Checked.also_eq_ok, Checked.map_eq_ok] at read
  obtain ⟨_, _, ⟨_, _, ⟨_, _, ⟨_, _, ⟨_, item, rfl⟩, _, rfl⟩, _, rfl⟩, _, rfl⟩, _, rfl⟩ := read
  exact item

/-- The part that an attack reads its item from, null where there is none. -/
theorem part_of_readFields (read : readFields data = .ok payload) :
    ((Json.get? data "itemUuid").or (Json.get? data "item_uuid")).getD .null =
      .ofOption .str payload.itemId := by
  rcases of_partOr_eq_ok (itemId_of_readFields read) with
    ⟨unnamed, none⟩ | ⟨name, part, named, text⟩
  · simp_all [firstNamed, Json.ofOption]
  · rw [← of_optional_readText_eq_ok text]
    unfold firstNamed at named
    cases written : Json.get? data "itemUuid" <;> cases plain : Json.get? data "item_uuid" <;>
      simp_all

/-- Data that names its item under one of the two names only has the same item in both readings. An
empty name counts as none. -/
theorem nonempty_itemReference (read : readFields data = .ok payload)
    (once : Json.get? data "itemUuid" = none ∨ Json.get? data "item_uuid" = none) :
    nonempty (Board.itemReference data) = nonempty payload.itemId := by
  have part := part_of_readFields read
  unfold Board.itemReference
  rcases once with unwritten | unnamed
  · rw [unwritten, Option.none_or] at part
    simp only [unwritten, Option.getD_none, Json.isTruthy, Bool.false_eq_true, ↓reduceIte, part]
    cases payload.itemId <;> rfl
  · rw [unnamed, Option.or_none] at part
    simp only [unnamed, Option.getD_none, part]
    cases item : payload.itemId with
    | none => rfl
    | some text =>
      by_cases empty : text = ""
      · rw [empty]
        rfl
      · simp [Json.ofOption, Json.isTruthy, empty]

end AttackPayload

/-! ## The reach -/

namespace Board

variable {b : Board} {subject : TokenRef} {reveal : Bool} {payload : AttackPayload}

/-- Feet that an attack reaches: those of its item, or one square where the scene has no such
item. -/
def attackReach (b : Board) (payload : AttackPayload) : Int :=
  match b.findItem payload.itemId with
  | .ok item => item.reach
  | .error _ => b.scene.cell

/-- The empty id names no item, so a reference counts only if it is not empty. -/
theorem bind_item?_eq (s : Scene) (reference : Option String) :
    reference.bind s.item? = (nonempty reference).bind s.item? := by
  cases reference with
  | none => rfl
  | some id =>
    by_cases empty : id = ""
    · rw [empty]
      rfl
    · rw [nonempty]
      simpa using empty

theorem attackReach_eq (b : Board) (payload : AttackPayload) :
    b.attackReach payload =
      (((nonempty payload.itemId).bind b.scene.item?).map Item.reach).getD b.scene.cell := by
  unfold attackReach findItem
  cases nonempty payload.itemId with
  | none => rfl
  | some id => cases found : b.scene.item? id <;> simp [found]

theorem reachOf_eq (b : Board) (action : Action) :
    b.reachOf (some action) =
      (((itemReference action.data).bind b.scene.item?).map Item.reach).getD b.scene.cell := by
  unfold reachOf
  simp only [Option.bind_eq_bind, Option.bind_some]
  cases (itemReference action.data).bind b.scene.item? <;> rfl

/-- The gate and the attack have the same reach. -/
theorem reachOf_eq_attackReach {action : Action}
    (read : AttackPayload.readFields action.data = .ok payload)
    (once : Json.get? action.data "itemUuid" = none ∨ Json.get? action.data "item_uuid" = none) :
    b.reachOf (some action) = b.attackReach payload := by
  rw [reachOf_eq, attackReach_eq, bind_item?_eq, AttackPayload.nonempty_itemReference read once]

/-! ## The nearest hostile -/

/-- An attack goes to the nearest hostile if it names no target and the first of its priorities that
is known asks for the nearest. -/
structure GoesToNearest (payload : AttackPayload) : Prop where
  unnamed : nonempty payload.targetId = none
  nearest : ∃ passed rest, payload.priorities = passed ++ .nearest :: rest ∧
    ∀ priority ∈ passed, ¬ priority.IsKnown

theorem GoesToNearest.findTarget_eq (goes : GoesToNearest payload) :
    b.findTarget subject payload reveal = b.nearest? subject (b.hostilesOf subject reveal) := by
  obtain ⟨passed, rest, priorities, unknown⟩ := goes.nearest
  have none : passed.findSome? (·.ranking?) = none :=
    List.findSome?_eq_none_iff.mpr fun priority member =>
      TargetPriority.ranking?_eq_none_iff.mpr (unknown priority member)
  have ranking : payload.priorities.findSome? (·.ranking?) = some (.least, .distance) := by
    rw [priorities, List.findSome?_append, none, Option.none_or]
    rfl
  rw [findTarget, goes.unnamed]
  dsimp only
  rw [selectTarget, ranking]
  rfl

/-- There is a nearest candidate as soon as there is a candidate, and it is no farther. -/
theorem exists_nearest? (b : Board) (subject : TokenRef) {candidates : List TokenRef}
    {other : TokenRef} (member : other ∈ candidates) :
    ∃ target, b.nearest? subject candidates = some target ∧
      b.distance subject target ≤ b.distance subject other := by
  obtain ⟨first, rest, rfl⟩ := List.exists_cons_of_ne_nil (List.ne_nil_of_mem member)
  obtain ⟨target, found, before, behind, split, ahead, least⟩ :=
    Preference.exists_best? .least (b.distance subject) first rest
  refine ⟨target, found, ?_⟩
  rw [split] at member
  rcases List.mem_append.mp member with early | late
  · exact Int.le_of_lt (ahead other early)
  · rcases List.mem_cons.mp late with rfl | late
    · exact Int.le_refl _
    · exact Int.not_lt.mp (least other late)

theorem mem_of_nearest? {candidates : List TokenRef} {target : TokenRef}
    (found : b.nearest? subject candidates = some target) : target ∈ candidates :=
  (Preference.best?_eq_some_iff.mp found).mem

/-- For an attack that goes to the nearest hostile, with data that names its item under one name
only, a target is in range exactly if the attack finds one that is within its reach. -/
theorem gate_is_open_iff_target_is_reached (b : Board) (subject : TokenRef) (action : Action)
    (reveal : Bool) (payload : AttackPayload)
    (read : AttackPayload.readFields action.data = .ok payload)
    (once : Json.get? action.data "itemUuid" = none ∨ Json.get? action.data "item_uuid" = none)
    (goes : GoesToNearest payload) :
    b.inRange subject (some action) reveal = true ↔
      ∃ target, b.findTarget subject payload reveal = some target ∧
        b.distance subject target ≤ b.attackReach payload := by
  rw [inRange, List.any_eq_true, reachOf_eq_attackReach read once, goes.findTarget_eq]
  constructor
  · rintro ⟨hostile, member, within⟩
    obtain ⟨target, found, nearer⟩ := exists_nearest? b subject member
    exact ⟨target, found, nearer.trans (of_decide_eq_true within)⟩
  · rintro ⟨target, found, within⟩
    exact ⟨target, mem_of_nearest? found, decide_eq_true within⟩

/-- A hero with a spear, a hidden scout next to him, and behind it a guard whom the spear reaches
and a chief whom it does not. -/
def skirmish : Board where
  roster := [
    { id := "hero", name := "Hero", disposition := .friendly },
    { id := "scout", name := "Scout", position := ⟨1, 0⟩, hidden := true },
    { id := "chief", name := "Chief", position := ⟨3, 3⟩ },
    { id := "guard", name := "Guard", position := ⟨2, 1⟩ }]
  scene.nodes := [("hero", .token 0), ("scout", .token 1), ("chief", .token 2),
    ("guard", .token 3), ("spear", .item { id := "spear", name := "Spear", reach := 10 })]

/-- A thrust with the spear at the nearest, which comes after a priority that is not known. -/
def thrust : Action :=
  { id := "thrust", kind := .attack,
    data := [("item_uuid", .str "spear"),
      ("targetPriority", .arr [.str "weakest", .str "nearest"])] }

theorem gate_is_open_iff_target_is_reached_thrust :
    let payload : AttackPayload :=
      { itemId := some "spear", priorities := [.other "weakest", .nearest] }
    AttackPayload.readFields thrust.data = .ok payload ∧ GoesToNearest payload ∧
      skirmish.findTarget 0 payload false = some 3 ∧ skirmish.attackReach payload = 10 ∧
      skirmish.inRange 0 (some thrust) false = true := by
  intro payload
  have read : AttackPayload.readFields thrust.data = .ok payload := by decide
  have unknown : ¬ (TargetPriority.other "weakest").IsKnown :=
    TargetPriority.ranking?_eq_none_iff.mp (by decide)
  have goes : GoesToNearest payload := by
    refine ⟨rfl, [.other "weakest"], [], rfl, ?_⟩
    rintro priority member
    rw [List.mem_singleton.mp member]
    exact unknown
  have found : skirmish.findTarget 0 payload false = some 3 := by decide
  have reach : skirmish.attackReach payload = 10 := by decide
  refine ⟨read, goes, found, reach, ?_⟩
  have gate := gate_is_open_iff_target_is_reached skirmish 0 thrust false payload read
    (.inl rfl) goes
  apply gate.mpr
  exact ⟨3, found, by decide⟩

end Board
end TurnScript
