import TurnScript.Script.Action

/-!
# Execution order

Actions run by ascending order number; those with the same number run in the order in which
they are stored.
-/

namespace TurnScript

/-- Actions by ascending order number, ties as they stand. -/
def sortedByOrder (actions : List Action) : List Action :=
  actions.mergeSort fun a b => decide (a.order ≤ b.order)

/-- Sorting keeps every action. -/
theorem sortedByOrder_perm (actions : List Action) : (sortedByOrder actions).Perm actions :=
  List.mergeSort_perm _ _

/-- No action comes after one with a greater order number. -/
theorem pairwise_sortedByOrder (actions : List Action) :
    (sortedByOrder actions).Pairwise fun a b => a.order ≤ b.order := by
  have sorted := @List.pairwise_mergeSort Action (fun a b => decide (a.order ≤ b.order))
    (fun a b c before after => by simp at before after ⊢; omega)
    (fun a b => by simp; omega) actions
  simpa [sortedByOrder] using sorted

/-- The enabled actions of a script, in the order in which they run. -/
def runnable (actions : List Action) : List Action :=
  sortedByOrder (actions.filter (·.enabled))

/-- The first action with an id. -/
def findAction? (actions : List Action) (id : String) : Option Action :=
  actions.find? (·.id == id)

end TurnScript
