import Mathlib.Data.List.Cycle
import Mathlib.Logic.Relation

/-!
# Elementary cycles

An elementary cycle of a relation leads through two or more members, each once, and back to where
it began. Where it began is not part of it: rotated lists are one cycle. In a linear order each
elementary cycle has exactly one list that begins with its least member, so the lists that do can
stand for the cycles. A relation that relates nothing to itself has an elementary cycle if
anything can be reached from itself.
-/

namespace TurnScript

variable {α : Type} {r : α → α → Prop}

/-- A cycle of a relation that leads through at least two members, each once. -/
structure IsElementary (r : α → α → Prop) (cycle : Cycle α) : Prop where
  distinct : cycle.Nodup
  long : 2 ≤ cycle.length
  leads : cycle.Chain r

/-- A list is an elementary cycle if it has no member twice and is, with its first member once more
at its end, a walk of the relation. -/
theorem isElementary_cons {first : α} {rest : List α} :
    IsElementary r (first :: rest : List α) ↔
      (first :: rest).Nodup ∧ rest ≠ [] ∧ (first :: rest ++ [first]).IsChain r := by
  have more : 2 ≤ (first :: rest).length ↔ rest ≠ [] := by
    cases rest <;> simp
  constructor
  · intro elementary
    exact ⟨Cycle.nodup_coe_iff.mp elementary.distinct, more.mp elementary.long,
      (Cycle.chain_coe_cons r first rest).mp elementary.leads⟩
  · rintro ⟨distinct, further, walk⟩
    exact ⟨Cycle.nodup_coe_iff.mpr distinct, more.mpr further,
      (Cycle.chain_coe_cons r first rest).mpr walk⟩

/-- No member of an elementary cycle leads to itself. -/
theorem IsElementary.leads_away {cycle : Cycle α} (elementary : IsElementary r cycle) :
    IsElementary (fun a b => a ≠ b ∧ r a b) cycle := by
  induction cycle using Cycle.induction_on with
  | nil => exact absurd elementary.long (by simp)
  | cons first rest _ =>
    obtain ⟨distinct, further, walk⟩ := isElementary_cons.mp elementary
    have unlike : (first :: rest ++ [first]).IsChain (· ≠ ·) := by
      refine List.IsChain.append distinct.isChain (List.isChain_singleton _) ?_
      intro last isLast back isBack
      obtain rfl : first = back := by simpa using isBack
      have inRest : last ∈ rest := by
        rw [List.getLast?_cons_of_ne_nil further] at isLast
        exact List.mem_of_getLast? isLast
      rintro rfl
      exact (List.nodup_cons.mp distinct).1 inRest
    refine isElementary_cons.mpr ⟨distinct, further, ?_⟩
    refine List.isChain_iff_getElem.mpr fun i inside => ?_
    exact ⟨List.isChain_iff_getElem.mp unlike i inside, List.isChain_iff_getElem.mp walk i inside⟩
/-! ## Reachability -/

/-- Whoever is on an elementary cycle can be reached from itself. -/
theorem IsElementary.exists_transGen {cycle : Cycle α} (elementary : IsElementary r cycle) :
    ∃ a, Relation.TransGen r a a := by
  induction cycle using Cycle.induction_on with
  | nil => exact absurd elementary.long (by simp)
  | cons first rest _ =>
    obtain ⟨_, further, walk⟩ := isElementary_cons.mp elementary
    obtain ⟨second, others, rfl⟩ := List.exists_cons_of_ne_nil further
    obtain ⟨step, walkOn⟩ := List.isChain_cons_cons.mp walk
    exact ⟨first, .head' step
      (List.relationReflTransGen_of_exists_isChain_cons _ walkOn (by simp))⟩

/-- A walk back to its first member that has some member twice has a shorter walk back in it. -/
theorem exists_shorter_walk {first : α} {rest : List α}
    (walk : (first :: rest ++ [first]).IsChain r) (repeats : ¬(first :: rest).Nodup) :
    ∃ again inner, inner.length < rest.length ∧ (again :: inner ++ [again]).IsChain r := by
  obtain ⟨again, twice⟩ := List.exists_duplicate_iff_not_nodup.mpr repeats
  obtain ⟨front, back, parts, inFront, inBack⟩ :=
    List.cons_sublist_iff.mp (List.duplicate_iff_sublist.mp twice)
  obtain ⟨before, middle, rfl⟩ := List.append_of_mem inFront
  obtain ⟨further, behind, rfl⟩ := List.append_of_mem (List.singleton_sublist.mp inBack)
  refine ⟨again, middle ++ further, ?_, ?_⟩
  · have counted := congrArg List.length parts
    simp only [List.length_append, List.length_cons] at counted ⊢
    omega
  · refine walk.infix ⟨before, behind ++ [first], ?_⟩
    rw [parts]
    simp

/-- If nothing leads to itself at once, then whatever can be reached from itself is behind an
elementary cycle. -/
theorem exists_isElementary {a : α} (irreflexive : ∀ a, ¬r a a)
    (returns : Relation.TransGen r a a) : ∃ cycle, IsElementary r cycle := by
  obtain ⟨next, step, onward⟩ := Relation.TransGen.head'_iff.mp returns
  obtain ⟨rest, walk, last⟩ := List.exists_isChain_cons_of_relationReflTransGen onward
  have round : ∃ first rest, (first :: rest ++ [first]).IsChain r := by
    refine ⟨a, (next :: rest).dropLast, ?_⟩
    rw [List.cons_append, ← last, List.dropLast_append_getLast, last]
    exact .cons_cons step walk
  -- A shortest walk back has no member twice.
  obtain ⟨first, rest, walk⟩ := round
  clear returns step onward last
  induction length : rest.length using Nat.strong_induction_on generalizing first rest with
  | _ n inductionHypothesis =>
    by_cases distinct : (first :: rest).Nodup
    · refine ⟨(first :: rest : List α), isElementary_cons.mpr ⟨distinct, ?_, walk⟩⟩
      rintro rfl
      exact irreflexive first (by simpa using walk)
    · obtain ⟨again, inner, shorter, walkInner⟩ := exists_shorter_walk walk distinct
      exact inductionHypothesis inner.length (length ▸ shorter) again inner walkInner rfl

/-! ## The list from the least member -/

section Least

variable [LinearOrder α]

/-- Lists that begin with their least member are rotations of each other only if they are equal. -/
theorem eq_of_isRotated {first other : α} {rest others : List α}
    (least : ∀ a ∈ rest, first < a) (leastOther : ∀ a ∈ others, other < a)
    (rotated : (first :: rest) ~r (other :: others)) : first :: rest = other :: others := by
  have same : first = other := by
    have here : first ∈ other :: others := rotated.mem_iff.mp (List.mem_cons_self ..)
    have there : other ∈ first :: rest := rotated.mem_iff.mpr (List.mem_cons_self ..)
    rcases List.mem_cons.mp here with same | behind
    · exact same
    · rcases List.mem_cons.mp there with same | behindToo
      · exact same.symm
      · exact absurd (least other behindToo) (lt_asymm (leastOther first behind))
  subst same
  obtain ⟨places, within, turned⟩ := List.isRotated_iff_mod.mp rotated
  cases places with
  | zero => simpa using turned
  | succ places =>
    rw [List.rotate_eq_drop_append_take within, List.drop_succ_cons] at turned
    -- If the turn leaves some of the rest in front, that begins with the least member again.
    cases front : rest.drop places with
    | nil =>
      have whole : rest.take places = rest :=
        List.take_of_length_le (List.drop_eq_nil_iff.mp front)
      simpa [front, whole] using turned
    | cons member behind =>
      have again : member = first := by simpa [front] using congrArg List.head? turned
      have inRest : member ∈ rest := List.mem_of_mem_drop (front ▸ List.mem_cons_self ..)
      exact absurd (again ▸ least member inRest) (lt_irrefl first)

/-- Every elementary cycle has a list that begins with its least member. -/
theorem IsElementary.exists_least {cycle : Cycle α} (elementary : IsElementary r cycle) :
    ∃ first rest, cycle = (first :: rest : List α) ∧ ∀ a ∈ rest, first < a := by
  induction cycle using Cycle.induction_on with
  | nil => exact absurd elementary.long (by simp)
  | cons head tail _ =>
    have members : head :: tail ≠ [] := List.cons_ne_nil head tail
    obtain ⟨before, after, parts⟩ := List.append_of_mem (List.min_mem members)
    refine ⟨(head :: tail).min members, after ++ before, ?_, ?_⟩
    · refine Cycle.coe_eq_coe.mpr ?_
      nth_rewrite 1 [parts]
      exact List.isRotated_append
    · intro a elsewhere
      have distinct : (head :: tail).Nodup := Cycle.nodup_coe_iff.mp elementary.distinct
      rw [parts, List.nodup_middle] at distinct
      have inBeforeAfter : a ∈ before ++ after := by simpa [or_comm] using elsewhere
      have member : a ∈ head :: tail := by
        rw [parts]
        simp only [List.mem_append, List.mem_cons] at elsewhere ⊢
        tauto
      refine lt_of_le_of_ne (List.min_le_of_mem member) ?_
      rintro rfl
      exact (List.nodup_cons.mp distinct).1 inBeforeAfter

end Least
end TurnScript
