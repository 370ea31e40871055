import TurnScript.Script.Action

/-!
# Reports on a script

The branch references of a script form a directed graph on action ids. A report names the
ids carried by several actions, the references to no action, the actions that refer to
themselves, and every elementary cycle of two or more actions. None of these stops a run.

Each cycle begins at its least id, and the cycles are in order; so a cycle is listed once
and the report does not depend on how it was found.
-/

namespace TurnScript

/-- Which branch of an action a reference is. -/
inductive Slot where
  | onSuccess
  | onFailure
  deriving Repr, DecidableEq

/-- The written name of a slot. -/
def Slot.name : Slot → String
  | onSuccess => "onSuccess"
  | onFailure => "onFailure"

/-- A reference that an action makes. -/
structure Reference where
  source : String
  slot : Slot
  target : String
  deriving Repr, DecidableEq

/-- The references of an action: those that name something, success first. -/
def Action.references (a : Action) : List Reference :=
  ((nonempty a.onSuccess).map (⟨a.id, .onSuccess, ·⟩)).toList ++
    ((nonempty a.onFailure).map (⟨a.id, .onFailure, ·⟩)).toList

/-- What is wrong with a script. -/
structure Report where
  duplicates : List String
  dangling : List Reference
  selfBranches : List String
  cycles : List (List String)
  deriving Repr, DecidableEq

namespace Report

/-- Whether nothing is wrong. -/
def ok (r : Report) : Bool :=
  r.duplicates.isEmpty && r.dangling.isEmpty && r.selfBranches.isEmpty && r.cycles.isEmpty

/-- A cycle written as a path back to its start. -/
def cycleText (cycle : List String) : String :=
  " -> ".intercalate (cycle ++ cycle.take 1)

/-- One line for each thing that is wrong. -/
def problems (r : Report) : List String :=
  r.duplicates.map ("duplicate id " ++ ·) ++
    r.dangling.map (fun ref =>
      ref.source ++ "." ++ ref.slot.name ++ " -> missing " ++ ref.target) ++
    r.selfBranches.map (· ++ " branches to itself") ++
    r.cycles.map cycleText

/-- The ids of a list, each at its first place. -/
def distinct : List String → List String
  | [] => []
  | id :: rest => id :: (distinct rest).filter (· != id)

/-- The ids that follow an id by a reference, itself left out, in order and once each. -/
def successors (references : List Reference) (id : String) : List String :=
  let targets := (references.filter fun ref => ref.source == id && ref.target != id).map (·.target)
  (distinct targets).mergeSort (fun a b => decide (a ≤ b))

/-- The cycles that go on from a path, whose ids are listed latest first, and close at
`start`. Only greater ids are visited, each once, so as many steps as there are ids are
enough. -/
def cyclesFrom (references : List Reference) (start : String) :
    Nat → String → List String → List (List String)
  | 0, _, _ => []
  | steps + 1, last, path =>
    (successors references last).flatMap fun next =>
      if next = start then [path.reverse]
      else if start < next ∧ next ∉ path then cyclesFrom references start steps next (next :: path)
      else []

/-- The ids greater than `start` that are known to lead back to it, with those that one more
reference adds, and so on, so many times or until nothing is added. -/
def leadingTo (references : List Reference) (start : String) : Nat → List String → List String
  | 0, known => known
  | steps + 1, known =>
    let added := references.filter fun ref => start < ref.source && !known.contains ref.source &&
      (ref.target == start || known.contains ref.target)
    if added.isEmpty then known
    else leadingTo references start steps (known ++ distinct (added.map (·.source)))

/-- The references between ids that lead back to `start`. No cycle from it has any other, and
without them no path is followed that could not close. -/
def closing (references : List Reference) (start : String) : List Reference :=
  let ends := start :: leadingTo references start references.length []
  references.filter fun ref => ends.contains ref.source && ends.contains ref.target

/-- Every elementary cycle of two or more ids, from its least id, in order. -/
def cyclesOf (ids : List String) (references : List Reference) : List (List String) :=
  ((distinct ids).mergeSort (fun a b => decide (a ≤ b))).flatMap fun start =>
    cyclesFrom (closing references start) start ids.length start [start]

/-- Report on a script. -/
def ofScript (actions : List Action) : Report :=
  let ids := actions.map (·.id)
  let references := actions.flatMap (·.references)
  { duplicates := (distinct ids).filter fun id => 1 < ids.count id
    dangling := references.filter fun ref => !ids.contains ref.target
    selfBranches :=
      distinct ((references.filter fun ref => ref.target == ref.source).map (·.source))
    cycles := cyclesOf ids references }

end Report
end TurnScript
