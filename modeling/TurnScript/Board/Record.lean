import TurnScript.Board.Basic
import TurnScript.Json.Basic
import TurnScript.Text.Numeral

/-!
# Records of tokens and items

A board is set up from records of its tokens and items. Only what a record names is set, and a
part that is not of the kind expected is taken as blank. A record is refused if it has no id, if a
part that stands for one of a few things stands for none of them, or if it names a part that there
is not.

A token that is there already is changed field by field. A name that is no part of a token is
passed over then, and what was set before a field that cannot be set stays.
-/

namespace TurnScript

/-- Why a record of the board is refused. -/
inductive RecordError where
  | missingId
  | badValue
  | unknownName
  /-- The part follows from others. -/
  | derivedPart
  deriving Repr, DecidableEq

/-- The square of a record: a pair of numbers, or a number for each of `x` and `y`. -/
def Position.ofRecord : Json → Position
  | .arr [x, y] => ⟨x.asWhole?.getD 0, y.asWhole?.getD 0⟩
  | record =>
    let along (axis : String) : Int :=
      ((Json.get? record.asFields axis).bind Json.asWhole?).getD 0
    ⟨along "x", along "y"⟩

/-- The id that a record gives. -/
def idOfRecord (record : Json) : Except RecordError String :=
  match Json.get? record.asFields "id" with
  | some id => .ok (id.asText?.getD "")
  | none => .error .missingId

/-- The value that stands for one of a few things. -/
def chosen {α : Type} (choice : Option α) : Except RecordError α :=
  match choice with
  | some value => .ok value
  | none => .error .badValue

/-- Refuse a record that names something else than these. -/
def onlyNames (names : List String) (record : Json) : Except RecordError Unit :=
  if record.asFields.all fun (name, _) => names.contains name then .ok () else .error .unknownName

namespace Token

/-- The names of the parts of a token's record. -/
def recordNames : List String :=
  ["id", "name", "pos", "disposition", "hp", "max_hp", "ac", "speed", "attributes", "spell_slots",
    "resources", "hidden", "advantage", "disadvantage", "initiative", "auto_initiative"]

/-- A name that a token's record may have to no effect: the square is under another one. -/
def spareName : String := "position"

/-- The pools of a record, each a name with what is left. -/
def poolsOfRecord (record : Json) : List (String × Int) :=
  record.asFields.map fun (name, left) => (name, left.asWhole?.getD 0)

/-- The spell slots of a record, each a level with what is left. Of two spellings of one level the
later counts. -/
def slotsOfRecord (record : Json) : Except RecordError (List (Int × Int)) :=
  record.asFields.foldlM (fun slots (level, left) => do
    let level ← chosen (Text.readLooseNumeral level.toList).toOption
    return Ordered.put slots level (left.asWhole?.getD 0)) []

/-- Set what one field of a record names. -/
def setField (t : Token) (name : String) (value : Json) : Except RecordError Token :=
  let text := value.asText?.getD ""
  let whole := value.asWhole?.getD 0
  let truth := value.asTruth?.getD false
  match name with
  | "id" => .ok { t with id := text }
  | "name" => .ok { t with name := text }
  | "pos" | "position" => .ok { t with position := .ofRecord value }
  | "disposition" => do
    return { t with disposition := ← chosen (value.asWhole?.bind Disposition.ofNumber?) }
  | "hp" => .ok { t with hp := whole }
  | "max_hp" => .ok { t with maxHp := whole }
  | "ac" => .ok { t with ac := whole }
  | "speed" => .ok { t with speed := whole }
  | "attributes" => .ok { t with scores := poolsOfRecord value }
  | "spell_slots" => do return { t with spellSlots := ← slotsOfRecord value }
  | "resources" => .ok { t with resources := poolsOfRecord value }
  | "hidden" => .ok { t with hidden := truth }
  | "advantage" => .ok { t with advantage := value.asTruth? }
  | "disadvantage" => .ok { t with disadvantage := value.asTruth? }
  | "initiative" => .ok { t with initiative := value.asWhole? }
  | "auto_initiative" => .ok { t with autoInitiative := truth }
  | "alive" | "hp_percent" => .error .derivedPart
  | _ => .ok t

/-- A token with fields set in turn, the names that were set, and why the next was not. -/
structure Edit where
  token : Token
  names : List String := []
  stopped : Option RecordError := none

/-- Set fields in turn, up to one that cannot be set. -/
def setFields (t : Token) (fields : Fields) : Edit :=
  fields.foldl (fun edit (name, value) =>
    match edit.stopped, edit.token.setField name value with
    | some _, _ => edit
    | none, .ok token => { edit with token, names := name :: edit.names }
    | none, .error error => { edit with stopped := some error }) { token := t }

/-- The token of a record. Without a name it goes by its id. -/
def ofRecord (record : Json) : Except RecordError Token := do
  let id ← idOfRecord record
  let token ← record.asFields.foldlM (fun t (name, value) =>
    if recordNames.contains name then t.setField name value else .ok t) { id, name := id }
  onlyNames (spareName :: recordNames) record
  return token

end Token

namespace Item

/-- The names of the parts of an item's record. -/
def recordNames : List String :=
  ["id", "name", "item_type", "description", "uses", "max_uses", "level", "consume_target", "reach",
    "attack_bonus", "damage", "save_dc", "save_attribute", "healing"]

/-- Set what one field of a record names. -/
def setField (i : Item) (name : String) (value : Json) : Except RecordError Item :=
  let text := value.asText?.getD ""
  match name with
  | "name" => .ok { i with name := text }
  | "item_type" => do return { i with kind := ← chosen (value.asText?.bind ItemKind.ofName?) }
  | "description" => .ok { i with description := text }
  | "uses" => .ok { i with uses := value.asWhole? }
  | "max_uses" => .ok { i with maxUses := value.asWhole? }
  | "level" => .ok { i with level := value.asWhole?.getD 0 }
  | "consume_target" => .ok { i with consumeTarget := value.asText? }
  | "reach" => .ok { i with reach := value.asWhole?.getD 5 }
  | "attack_bonus" => .ok { i with attackBonus := value.asWhole? }
  | "damage" => .ok { i with damage := value.asText? }
  | "save_dc" => .ok { i with saveDc := value.asWhole? }
  | "save_attribute" => do
    return { i with saveAbility := ← chosen (value.asText?.bind Ability.ofName?) }
  | "healing" => .ok { i with healing := value.asText? }
  | _ => .ok i

/-- The item of a record. Without a name it goes by its id. -/
def ofRecord (record : Json) : Except RecordError Item := do
  let id ← idOfRecord record
  let item ← record.asFields.foldlM (fun i (name, value) => i.setField name value)
    { id, name := id }
  onlyNames recordNames record
  return item

end Item

namespace Board

/-- The name under which an item's record names its owner. -/
def ownerName : String := "owner"

/-- Add the item of a record, which may name the owner beside the parts of the item. -/
def addOwned (b : Board) (record : Json) : Except RecordError Board := do
  let fields := record.asFields
  let item ← Item.ofRecord (.obj (fields.filter fun (name, _) => name != ownerName))
  return b.addItem item ((Json.get? fields ownerName).bind Json.asText?)

/-- A board with so many feet to a square and the tokens and items of records. -/
def ofRecords (cell : Int) (tokens items : List Json) : Except RecordError Board := do
  let b ← tokens.foldlM (fun (b : Board) record => do return b.addToken (← Token.ofRecord record))
    { scene := { cell } }
  items.foldlM addOwned b

/-- Enlist the tokens of records beside the scene. Of two with one id the later counts. -/
def enlistRecords (b : Board) (records : List Json) :
    Except RecordError (List (String × TokenRef) × Board) :=
  records.foldlM (fun (named, b) record => do
    let token ← Token.ofRecord record
    let (ref, b) := enlist b token
    return (Ordered.put named token.id ref, b)) ([], b)

end Board
end TurnScript
