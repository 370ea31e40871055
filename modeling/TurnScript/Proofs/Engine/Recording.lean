import Mathlib.Data.List.Permutation
import TurnScript.Proofs.Engine.Account

/-!
# What a ledger keeps of the dispatches

A ledger has one place for each id, and the places stand in the order in which the ids were first
recorded. A place holds the latest outcome of its id. So a search of the ledger for the first
outcome of some sort goes through the dispatches in the order of time, but it looks at the latest
outcome of each id in place of the outcome that the dispatch had.
-/

namespace TurnScript

/-- The latest outcome of an id among some dispatches. -/
def latest? (plays : List (Action × Outcome)) (id : String) : Option Outcome :=
  (plays.reverse.find? (·.1.id == id)).map (·.2)

/-- The ids of some dispatches. -/
def idsOf (plays : List (Action × Outcome)) : List String :=
  plays.map (·.1.id)

section Distinct

variable {α β : Type} [BEq α] [LawfulBEq α]

/-- Once what has been seen before is passed over, nothing stands twice. -/
theorem nodup_eraseDups (values : List α) : values.eraseDups.Nodup := by
  match values with
  | [] => simp
  | value :: rest =>
    rw [List.eraseDups_cons, List.nodup_cons]
    exact ⟨by simp, nodup_eraseDups _⟩
termination_by values.length
decreasing_by
  have bound := List.length_filter_le (fun other => !other == value) rest
  simp only [List.length_cons]
  omega

/-- Where nothing stands twice, nothing is passed over. -/
theorem eraseDups_of_nodup {values : List α} (distinct : values.Nodup) :
    values.eraseDups = values := by
  induction values with
  | nil => rfl
  | cons value rest inductionHypothesis =>
    obtain ⟨absent, restDistinct⟩ := List.nodup_cons.mp distinct
    have kept : rest.filter (fun other => !other == value) = rest := by
      apply List.filter_eq_self.mpr
      rintro other member
      have unlike : other ≠ value := fun same => absent (same ▸ member)
      simpa using unlike
    rw [List.eraseDups_cons, kept, inductionHypothesis restDistinct]

/-- A search that finds nothing in a value may pass over that value everywhere. -/
theorem findSome?_filter_ne (f : α → Option β) (value : α) (rest : List α)
    (refused : f value = none) :
    (rest.filter fun other => !other == value).findSome? f = rest.findSome? f := by
  induction rest with
  | nil => rfl
  | cons other rest inductionHypothesis =>
    by_cases same : other = value
    · subst same
      simpa [refused] using inductionHypothesis
    · simp [same, List.findSome?_cons, inductionHypothesis]

/-- A search may pass over what has been seen before. -/
theorem findSome?_eraseDups (f : α → Option β) (values : List α) :
    values.eraseDups.findSome? f = values.findSome? f := by
  match values with
  | [] => simp
  | value :: rest =>
    rw [List.eraseDups_cons, List.findSome?_cons, List.findSome?_cons]
    cases refused : f value with
    | some found => rfl
    | none =>
      rw [findSome?_eraseDups f (rest.filter fun other => !other == value)]
      exact findSome?_filter_ne f value rest refused
termination_by values.length
decreasing_by
  have bound := List.length_filter_le (fun other => !other == value) rest
  simp only [List.length_cons]
  omega

end Distinct

namespace Ledger

/-- The places of a ledger stand in the order in which their ids were first recorded. -/
theorem keys_recordAll (plays : List (Action × Outcome)) :
    Ordered.keys (recordAll [] plays) = (idsOf plays).eraseDups := by
  induction plays using List.reverseRecOn with
  | nil => rfl
  | append_singleton plays play inductionHypothesis =>
    rw [recordAll_append, idsOf, List.map_append, List.eraseDups_append]
    change Ordered.keys (Ordered.put (recordAll [] plays) play.1.id play.2) = _
    rw [Ordered.keys_put, inductionHypothesis]
    by_cases known : play.1.id ∈ idsOf plays
    · have present : play.1.id ∈ (idsOf plays).eraseDups := by simpa using known
      simp only [idsOf] at known present ⊢
      simp [present, known, List.removeAll]
    · have absent : play.1.id ∉ (idsOf plays).eraseDups := by simpa using known
      simp only [idsOf] at known absent ⊢
      simp [absent, known, List.removeAll, List.eraseDups_cons]

/-- A place of a ledger holds the latest outcome of its id. -/
theorem get?_recordAll (plays : List (Action × Outcome)) (id : String) :
    Ordered.get? (recordAll [] plays) id = latest? plays id := by
  induction plays using List.reverseRecOn with
  | nil => rfl
  | append_singleton plays play inductionHypothesis =>
    rw [recordAll_append]
    change Ordered.get? (Ordered.put (recordAll [] plays) play.1.id play.2) id = _
    by_cases same : id = play.1.id
    · subst same
      simp [latest?]
    · rw [Ordered.get?_put_ne _ _ same, inductionHypothesis]
      simp [latest?, Ne.symm same]

/-- A search of a ledger by outcomes goes through the dispatches in the order of time and looks at
the latest outcome of each id. -/
theorem find?_recordAll (p : Outcome → Bool) (plays : List (Action × Outcome)) :
    ((recordAll [] plays).find? fun entry => p entry.2).map (·.2) =
      plays.findSome? fun play => (latest? plays play.1.id).filter p := by
  have distinct : (Ordered.keys (recordAll [] plays)).Nodup := by
    rw [keys_recordAll]
    exact nodup_eraseDups _
  have entrywise : ∀ entry ∈ recordAll [] plays,
      (Option.guard (fun entry : String × Outcome => p entry.2) entry).map (·.2) =
        (latest? plays entry.1).filter p := by
    intro entry member
    rw [← get?_recordAll, Ordered.get?_of_mem distinct member]
    cases accepted : p entry.2 <;> simp [Option.guard, Option.filter, accepted]
  calc ((recordAll [] plays).find? fun entry => p entry.2).map (·.2)
      = (recordAll [] plays).findSome? fun entry => (latest? plays entry.1).filter p := by
        rw [← List.findSome?_guard, List.map_findSome?, ← List.head?_filterMap,
          ← List.head?_filterMap]
        exact congrArg List.head? (List.filterMap_congr entrywise)
    _ = (Ordered.keys (recordAll [] plays)).findSome? fun id => (latest? plays id).filter p := by
        rw [Ordered.keys, List.findSome?_map]
        rfl
    _ = (idsOf plays).findSome? fun id => (latest? plays id).filter p := by
        rw [keys_recordAll, findSome?_eraseDups]
    _ = plays.findSome? fun play => (latest? plays play.1.id).filter p := by
        rw [idsOf, List.findSome?_map]
        rfl

end Ledger
end TurnScript
