import TurnScript.Number.Binary64
import TurnScript.Ordered
import TurnScript.Text.Numeral

/-!
# Values of records

The values that records are made of: whole numbers of any size, kept apart from floats, and
objects whose fields keep the order in which they were first named. A name occurs once in an
object; naming it again replaces the value in its old place.
-/

namespace TurnScript

/-- A value as it is stored and exchanged. -/
inductive Json where
  | null
  | bool (value : Bool)
  | int (value : Int)
  | float (value : Binary64)
  | str (value : String)
  | arr (items : List Json)
  | obj (fields : List (String × Json))
  deriving Repr, Inhabited

/-- The named values of an object, in order. -/
abbrev Fields := List (String × Json)

namespace Json

mutual
/-- Whether two values are the same, field order included. -/
def same : Json → Json → Bool
  | null, null => true
  | bool a, bool b => a == b
  | int a, int b => a == b
  | float a, float b => a == b
  | str a, str b => a == b
  | arr a, arr b => sameItems a b
  | obj a, obj b => sameFields a b
  | _, _ => false

/-- Whether two lists of values are the same. -/
def sameItems : List Json → List Json → Bool
  | [], [] => true
  | a :: as, b :: bs => same a b && sameItems as bs
  | _, _ => false

/-- Whether two lists of fields are the same, names and order included. -/
def sameFields : List (String × Json) → List (String × Json) → Bool
  | [], [] => true
  | (k, a) :: as, (l, b) :: bs => k == l && same a b && sameFields as bs
  | _, _ => false
end

mutual
/-- The test for sameness decides equality. -/
theorem same_iff : ∀ a b : Json, same a b = true ↔ a = b
  | null, b => by cases b <;> simp [same]
  | bool a, b => by cases b <;> simp [same]
  | int a, b => by cases b <;> simp [same]
  | float a, b => by cases b <;> simp [same]
  | str a, b => by cases b <;> simp [same]
  | arr as, b => by cases b <;> simp [same, sameItems_iff as]
  | obj as, b => by cases b <;> simp [same, sameFields_iff as]

/-- The test for sameness of lists decides equality. -/
theorem sameItems_iff : ∀ as bs : List Json, sameItems as bs = true ↔ as = bs
  | [], bs => by cases bs <;> simp [sameItems]
  | a :: as, bs => by cases bs <;> simp [sameItems, same_iff a, sameItems_iff as]

/-- The test for sameness of fields decides equality. -/
theorem sameFields_iff : ∀ as bs : List (String × Json), sameFields as bs = true ↔ as = bs
  | [], bs => by cases bs <;> simp [sameFields]
  | (k, a) :: as, bs => by
    cases bs with
    | nil => simp [sameFields]
    | cons head rest =>
      obtain ⟨l, b⟩ := head
      simp [sameFields, same_iff a, sameFields_iff as]
end

instance : DecidableEq Json := fun a b => decidable_of_iff _ (same_iff a b)

/-- The value of a name, if the fields have it. -/
def get? (fields : Fields) (name : String) : Option Json :=
  Ordered.get? fields name

/-- Give a name a value: in its old place if it has one, else at the end. -/
def put (fields : Fields) (name : String) (value : Json) : Fields :=
  Ordered.put fields name value

/-- The fields of an object; nothing else has any. -/
def asFields : Json → Fields
  | obj fields => fields
  | _ => []

/-- The items of a list; nothing else has any. -/
def asItems : Json → List Json
  | arr items => items
  | _ => []

/-- The text that a value is. -/
def asText? : Json → Option String
  | str value => some value
  | _ => none

/-- The truth value that a value is. -/
def asTruth? : Json → Option Bool
  | bool value => some value
  | _ => none

/-- The whole number that a value is; a truth value counts as one or zero. -/
def asWhole? : Json → Option Int
  | int value => some value
  | bool value => some (if value then 1 else 0)
  | float value => value.toInt?
  | _ => none

/-- Whether a value counts as present: not null, false, zero or empty. -/
def isTruthy : Json → Bool
  | null => false
  | bool value => value
  | int value => value != 0
  | float (.finite _ significand _) => significand != 0
  | float _ => true
  | str value => !value.isEmpty
  | arr items => !items.isEmpty
  | obj fields => !fields.isEmpty

mutual
/-- The value with every float that is not finite replaced by null, as records store it. -/
def storable : Json → Json
  | float (.infinite _) => null
  | float .nan => null
  | arr items => arr (storableItems items)
  | obj fields => obj (storableFields fields)
  | other => other

/-- `storable` of each item. -/
def storableItems : List Json → List Json
  | [] => []
  | item :: rest => storable item :: storableItems rest

/-- `storable` of each field's value. -/
def storableFields : List (String × Json) → List (String × Json)
  | [] => []
  | (name, value) :: rest => (name, storable value) :: storableFields rest
end

mutual
/-- How many levels a value has, its innermost plain values being one. -/
def depth : Json → Nat
  | arr items => depthItems items + 1
  | obj fields => depthFields fields + 1
  | _ => 1

/-- The greatest depth of some items. -/
def depthItems : List Json → Nat
  | [] => 0
  | item :: rest => max (depth item) (depthItems rest)

/-- The greatest depth of the values of some fields. -/
def depthFields : List (String × Json) → Nat
  | [] => 0
  | (_, value) :: rest => max (depth value) (depthFields rest)
end

mutual
/-- Whether every whole number in a value is within the digit limit. -/
def isWritable : Json → Bool
  | int value => Text.isWritable value
  | arr items => isWritableItems items
  | obj fields => isWritableFields fields
  | _ => true

/-- Whether every whole number in some items is within the digit limit. -/
def isWritableItems : List Json → Bool
  | [] => true
  | item :: rest => isWritable item && isWritableItems rest

/-- Whether every whole number in the values of some fields is within the digit limit. -/
def isWritableFields : List (String × Json) → Bool
  | [] => true
  | (_, value) :: rest => isWritable value && isWritableFields rest
end

end Json
end TurnScript
