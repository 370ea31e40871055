import TurnScript.Board.Scene

/-!
# The board

The board is the roster of all tokens, in the scene or not, and the scene that refers to
them. A token is changed in the roster, so everyone who refers to it sees the change.
-/

namespace TurnScript

/-- The tokens and the scene they stand in. -/
structure Board where
  roster : List Token := []
  scene : Scene := {}
  deriving Repr, DecidableEq, Inhabited

namespace Board

/-- The token of a reference. -/
def token (b : Board) (ref : TokenRef) : Token :=
  b.roster.getD ref default

/-- Write a token into the roster. -/
def enlist (b : Board) (t : Token) : TokenRef × Board :=
  (b.roster.length, { b with roster := b.roster ++ [t] })

/-- Change the token of a reference. -/
def change (b : Board) (ref : TokenRef) (f : Token → Token) : Board :=
  { b with roster := b.roster.modify ref f }

/-- Add a token to the roster and to the scene. -/
def addToken (b : Board) (t : Token) : Board :=
  let (ref, b) := b.enlist t
  { b with scene := b.scene.addToken t.id ref }

/-- Add an item to the scene. -/
def addItem (b : Board) (item : Item) (owner : Option String) : Board :=
  { b with scene := b.scene.addItem item owner }

/-- Take an id out of the scene; tells whether it was there. -/
def remove (b : Board) (id : String) : Bool × Board :=
  let (found, scene) := b.scene.remove id
  (found, { b with scene })

/-- Change the item under an id. -/
def changeItem (b : Board) (id : String) (f : Item → Item) : Board :=
  { b with scene := b.scene.changeItem id f }

/-- Move the token that the scene holds under an id; tells whether there is one. -/
def move (b : Board) (id : String) (goal : Position) : Bool × Board :=
  match b.scene.tokenRef? id with
  | none => (false, b)
  | some ref => (true, b.change ref fun t => { t with position := goal })

/-- The ids of what an id is linked to. A token goes by its own id, whatever its node is called. -/
def belongings (b : Board) (id : String) : List String :=
  (b.scene.owned id).map fun owned => match b.scene.tokenRef? owned with
    | some ref => (b.token ref).id
    | none => owned

/-- Feet between two tokens. -/
def distance (b : Board) (first second : TokenRef) : Int :=
  b.scene.distance (b.token first).position (b.token second).position

/-- Whether a token is a valid hostile of another: alive, of the opposed side, with another id,
and visible or revealed. -/
def isHostile (b : Board) (subject other : TokenRef) (reveal : Bool) : Bool :=
  let s := b.token subject
  let t := b.token other
  t.id != s.id && t.disposition == s.disposition.opposed && t.alive && (!t.hidden || reveal)

/-- The valid hostiles of a token, in scene order. -/
def hostilesOf (b : Board) (subject : TokenRef) (reveal : Bool) : List TokenRef :=
  b.scene.tokens.filter (b.isHostile subject · reveal)

/-- A change is seen through its own reference. -/
theorem token_change_self (b : Board) {ref : TokenRef} (f : Token → Token)
    (listed : ref < b.roster.length) : (b.change ref f).token ref = f (b.token ref) := by
  simp [change, token, List.getD, listed]

/-- A change is not seen through any other reference. -/
theorem token_change_ne (b : Board) {ref other : TokenRef} (f : Token → Token)
    (distinct : other ≠ ref) : (b.change ref f).token other = b.token other := by
  simp [change, token, List.getD, Ne.symm distinct]

/-- Nobody stands beyond the roster. -/
theorem token_of_unlisted (b : Board) {ref : TokenRef} (unlisted : ¬ ref < b.roster.length) :
    b.token ref = default := by
  simp [token, List.getD, Nat.le_of_not_lt unlisted]

/-- Beyond the roster a change changes nothing. -/
theorem change_of_unlisted (b : Board) {ref : TokenRef} (f : Token → Token)
    (unlisted : ¬ ref < b.roster.length) : b.change ref f = b := by
  rw [change, List.modify_eq_self (Nat.le_of_not_lt unlisted)]

/-- What a change leaves of every token. -/
theorem token_change (b : Board) (ref : TokenRef) (f : Token → Token) (other : TokenRef) :
    (b.change ref f).token other =
      if other = ref ∧ other < b.roster.length then f (b.token other) else b.token other := by
  by_cases same : other = ref
  · subst same
    by_cases listed : other < b.roster.length
    · rw [if_pos ⟨rfl, listed⟩, token_change_self b f listed]
    · rw [if_neg fun both => listed both.2, change_of_unlisted b f listed]
  · rw [if_neg fun both => same both.1, token_change_ne b f same]

/-- Only tokens of the scene, each with the qualities asked for, are valid hostiles. -/
theorem mem_hostilesOf {b : Board} {subject other : TokenRef} {reveal : Bool} :
    other ∈ b.hostilesOf subject reveal ↔
      other ∈ b.scene.tokens ∧ b.isHostile subject other reveal = true := by
  simp [hostilesOf]

end Board
end TurnScript
