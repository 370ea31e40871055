import TurnScript.Proofs.Combat.Living

/-!
# Initiative order

The order of a combat that is opened is told by three laws: it has the same combatants as before;
whoever has an initiative comes before whoever has a lower one, or none; and combatants with the same
initiative, or without any, stand as they stood. No two orders keep all three laws. An initiative of
zero or less is one like any other.
-/

namespace TurnScript

namespace Combat

/-- The combatants of an order that have the same initiative, or none. -/
def tied (table : Table) (initiative : Option Int) (order : List TokenRef) : List TokenRef :=
  order.filter fun ref => (table.token ref).initiative == initiative

/-- What puts combatants in initiative order. -/
structure IsOrdered (table : Table) (before order : List TokenRef) : Prop where
  perm : order.Perm before
  /-- Whoever stands before someone with an initiative has one that is no lower. -/
  descends : order.Pairwise fun a b => ∀ low, (table.token b).initiative = some low →
    ∃ high, (table.token a).initiative = some high ∧ low ≤ high
  ties : ∀ initiative, tied table initiative order = tied table initiative before

variable {table : Table} {before order other : List TokenRef} {ref : TokenRef}

theorem initiativeBefore_iff {first second : Option Int} :
    initiativeBefore first second = true ↔
      ∀ low, second = some low → ∃ high, first = some high ∧ low ≤ high := by
  cases first <;> cases second <;> simp [initiativeBefore]

theorem initiativeBefore_antisymm {first second : Option Int}
    (early : initiativeBefore first second = true)
    (late : initiativeBefore second first = true) : first = second := by
  cases first <;> cases second <;> simp_all [initiativeBefore]
  omega

theorem tied_cons_self (table : Table) (ref : TokenRef) (order : List TokenRef) :
    tied table (table.token ref).initiative (ref :: order) =
      ref :: tied table (table.token ref).initiative order := by
  simp [tied]

theorem tied_cons_of_ne {initiative : Option Int}
    (apart : (table.token ref).initiative ≠ initiative) (order : List TokenRef) :
    tied table initiative (ref :: order) = tied table initiative order := by
  simp [tied, apart]

/-- Sorting leaves those with the same initiative as they stand. -/
theorem tied_sort (c : Combat) (table : Table) (initiative : Option Int) :
    tied table initiative (c.sort table).combatants = tied table initiative c.combatants := by
  have equals : (tied table initiative c.combatants).Pairwise fun a b =>
      initiativeBefore (table.token a).initiative (table.token b).initiative = true := by
    apply List.pairwise_of_forall_mem_list
    intro a memberA b memberB
    have sameA : (table.token a).initiative = initiative := by
      simpa using (List.mem_filter.mp memberA).2
    have sameB : (table.token b).initiative = initiative := by
      simpa using (List.mem_filter.mp memberB).2
    rw [sameA, sameB]
    simpa using initiativeBefore_total initiative initiative
  have kept : (tied table initiative c.combatants).Sublist (c.sort table).combatants := by
    apply List.sublist_mergeSort _ _ equals List.filter_sublist
    · exact fun _ _ _ => initiativeBefore_trans _ _ _
    · exact fun _ _ => initiativeBefore_total _ _
  have among : (tied table initiative c.combatants).Sublist
      (tied table initiative (c.sort table).combatants) := by
    simpa [tied, List.filter_filter] using
      kept.filter fun ref => (table.token ref).initiative == initiative
  have equal := ((c.sort_perm table).filter
    fun ref => (table.token ref).initiative == initiative).length_eq
  exact (among.eq_of_length equal.symm).symm

/-- Sorting puts the combatants in initiative order. -/
theorem isOrdered_sort (c : Combat) (table : Table) :
    IsOrdered table c.combatants (c.sort table).combatants := by
  refine ⟨c.sort_perm table, ?_, tied_sort c table⟩
  exact (pairwise_sort c table).imp initiativeBefore_iff.mp

/-- Descending orders in which those with each initiative stand alike are the same. -/
theorem eq_of_tied (sorted : order.Pairwise fun a b =>
      initiativeBefore (table.token a).initiative (table.token b).initiative = true)
    (sortedOther : other.Pairwise fun a b =>
      initiativeBefore (table.token a).initiative (table.token b).initiative = true)
    (ties : ∀ initiative, tied table initiative order = tied table initiative other) :
    order = other := by
  induction order generalizing other with
  | nil =>
    cases other with
    | nil => rfl
    | cons b later =>
      have impossible := ties (table.token b).initiative
      rw [tied_cons_self] at impossible
      cases impossible
  | cons a rest inductionHypothesis =>
    have leads := ties (table.token a).initiative
    rw [tied_cons_self] at leads
    cases other with
    | nil => cases leads
    | cons b later =>
      obtain ⟨first, sortedRest⟩ := List.pairwise_cons.mp sorted
      obtain ⟨firstOther, sortedLater⟩ := List.pairwise_cons.mp sortedOther
      -- Of two that lead with different initiatives each would stand behind the other.
      have same : (table.token b).initiative = (table.token a).initiative := by
        by_contra apart
        rw [tied_cons_of_ne apart] at leads
        have behindB : a ∈ later := List.mem_of_mem_filter (leads ▸ List.mem_cons_self)
        have leadsB := ties (table.token b).initiative
        rw [tied_cons_self, tied_cons_of_ne (Ne.symm apart)] at leadsB
        have behindA : b ∈ rest := List.mem_of_mem_filter (leadsB ▸ List.mem_cons_self)
        exact apart (initiativeBefore_antisymm (firstOther a behindB) (first b behindA))
      rw [← same, tied_cons_self] at leads
      obtain ⟨rfl, tail⟩ := List.cons.inj leads
      congr 1
      apply inductionHypothesis sortedRest sortedLater
      intro initiative
      by_cases here : (table.token a).initiative = initiative
      · rw [← here]
        exact tail
      · have each := ties initiative
        rwa [tied_cons_of_ne here, tied_cons_of_ne here] at each

theorem IsOrdered.of_same {after : Table} (ordered : IsOrdered table before order)
    (same : after.token = table.token) : IsOrdered after before order := by
  refine ⟨ordered.perm, ?_, fun initiative => ?_⟩
  · rw [same]
    exact ordered.descends
  · rw [tied, tied, same]
    exact ordered.ties initiative

/-- There is only one way to put combatants in initiative order. -/
theorem IsOrdered.unique (ordered : IsOrdered table before order)
    (orderedOther : IsOrdered table before other) : order = other := by
  apply eq_of_tied (ordered.descends.imp initiativeBefore_iff.mpr)
    (orderedOther.descends.imp initiativeBefore_iff.mpr)
  exact fun initiative => (ordered.ties initiative).trans (orderedOther.ties initiative).symm

end Combat
end TurnScript
