import Mathlib.Data.List.Basic
import TurnScript.Script.Order

/-!
# Laws of the execution order

Sorting by order numbers is stable: under each number the actions stand as they stood before. Two
lists in ascending order that agree under every number are the same, so this and the ascent
determine the execution order, and what is known of the stored list under each number carries over
to it: what is added to the list, what is left out of it, and where it is cut.
-/

namespace TurnScript

/-- The actions with an order number. -/
def withOrder (order : Int) (actions : List Action) : List Action :=
  actions.filter (·.order == order)

/-- The order numbers of some actions do not decrease. -/
def IsRising (actions : List Action) : Prop :=
  actions.Pairwise fun a b => a.order ≤ b.order

theorem withOrder_cons_self (a : Action) (rest : List Action) :
    withOrder a.order (a :: rest) = a :: withOrder a.order rest := by
  simp [withOrder]

theorem withOrder_cons_of_ne {order : Int} {a : Action} (other : a.order ≠ order)
    (rest : List Action) : withOrder order (a :: rest) = withOrder order rest := by
  simp [withOrder, other]

/-- Of what is kept for its order number, all or nothing is under an order number. -/
theorem withOrder_filter (keeps : Int → Bool) (order : Int) (actions : List Action) :
    withOrder order (actions.filter fun a => keeps a.order) =
      if keeps order then withOrder order actions else [] := by
  rw [withOrder, List.filter_filter]
  split
  · next kept =>
    refine List.filter_congr fun a _ => ?_
    by_cases same : a.order = order <;> simp [same, kept]
  · next dropped =>
    refine List.filter_eq_nil_iff.mpr fun a _ => ?_
    by_cases same : a.order = order <;> simp [same, dropped]

/-- Under each order number, sorting leaves the actions as they stand. -/
theorem withOrder_sortedByOrder (order : Int) (actions : List Action) :
    withOrder order (sortedByOrder actions) = withOrder order actions := by
  have tied : (withOrder order actions).Pairwise fun a b => decide (a.order ≤ b.order) = true := by
    refine List.pairwise_of_forall_mem_list fun a inA b inB => ?_
    have sameA : a.order = order := by simpa using (List.mem_filter.mp inA).2
    have sameB : b.order = order := by simpa using (List.mem_filter.mp inB).2
    simp [sameA, sameB]
  have kept : (withOrder order actions).Sublist (sortedByOrder actions) := by
    refine List.sublist_mergeSort (fun a b c before after => ?_) (fun a b => ?_) tied
      List.filter_sublist
    · simp only [decide_eq_true_eq] at before after ⊢
      omega
    · simp only [Bool.or_eq_true, decide_eq_true_eq]
      omega
  have among : (withOrder order actions).Sublist (withOrder order (sortedByOrder actions)) := by
    simpa [withOrder, List.filter_filter] using kept.filter (·.order == order)
  have equal := ((sortedByOrder_perm actions).filter (·.order == order)).length_eq
  exact (among.eq_of_length equal.symm).symm

/-- Of two rising lists, one is part of the other if it is under every order number. -/
theorem sublist_of_withOrder {part whole : List Action} (risingPart : IsRising part)
    (risingWhole : IsRising whole)
    (each : ∀ order, (withOrder order part).Sublist (withOrder order whole)) :
    part.Sublist whole := by
  induction whole generalizing part with
  | nil =>
    cases part with
    | nil => exact .slnil
    | cons a rest =>
      have impossible := each a.order
      rw [withOrder_cons_self] at impossible
      cases impossible
  | cons b later inductionHypothesis =>
    obtain ⟨least, risingLater⟩ := List.pairwise_cons.mp risingWhole
    have beyond : ∀ order, b.order ≠ order →
        (withOrder order part).Sublist (withOrder order later) := fun order other =>
      withOrder_cons_of_ne other later ▸ each order
    cases part with
    | nil => exact List.nil_sublist _
    | cons a rest =>
      obtain ⟨first, risingRest⟩ := List.pairwise_cons.mp risingPart
      have here := each a.order
      by_cases same : b.order = a.order
      · rw [withOrder_cons_self, ← same, withOrder_cons_self, same] at here
        rcases List.cons_sublist_cons'.mp here with passed | ⟨rfl, matched⟩
        · refine .cons _ (inductionHypothesis risingPart risingLater fun order => ?_)
          by_cases here : b.order = order
          · rw [← here, same, withOrder_cons_self]
            exact passed
          · exact beyond order here
        · refine .cons_cons _ (inductionHypothesis risingRest risingLater fun order => ?_)
          by_cases here : a.order = order
          · rw [← here]
            exact matched
          · exact withOrder_cons_of_ne here rest ▸ beyond order here
      · -- The head of the part stands further on, so all of the part is greater than `b`.
        rw [withOrder_cons_of_ne same, withOrder_cons_self] at here
        have inLater := (List.mem_filter.mp (here.subset List.mem_cons_self)).1
        have atMost := least a inLater
        refine .cons _ (inductionHypothesis risingPart risingLater fun order => ?_)
        by_cases here : b.order = order
        · have none : withOrder order (a :: rest) = [] := by
            refine List.filter_eq_nil_iff.mpr fun c member equal => ?_
            have greater : a.order ≤ c.order := by
              rcases List.mem_cons.mp member with rfl | inRest
              · exact Int.le_refl _
              · exact first c inRest
            simp only [beq_iff_eq] at equal
            omega
          rw [none]
          exact List.nil_sublist _
        · exact beyond order here

/-- The execution order is the one rising list that agrees with the stored list under every order
number. -/
theorem sortedByOrder_eq {actions sorted : List Action} (rising : IsRising sorted)
    (each : ∀ order, withOrder order sorted = withOrder order actions) :
    sortedByOrder actions = sorted := by
  have ascent : IsRising (sortedByOrder actions) := pairwise_sortedByOrder actions
  have same : ∀ order, withOrder order (sortedByOrder actions) = withOrder order sorted :=
    fun order => (withOrder_sortedByOrder order actions).trans (each order).symm
  exact (sublist_of_withOrder ascent rising fun order => same order ▸ .refl _).antisymm
    (sublist_of_withOrder rising ascent fun order => same order ▸ .refl _)

/-- What is kept of a list keeps its execution order. -/
theorem sortedByOrder_sublist {part whole : List Action} (kept : part.Sublist whole) :
    (sortedByOrder part).Sublist (sortedByOrder whole) := by
  refine sublist_of_withOrder (pairwise_sortedByOrder part) (pairwise_sortedByOrder whole)
    fun order => ?_
  rw [withOrder_sortedByOrder, withOrder_sortedByOrder]
  exact kept.filter _

/-- Actions that are no less than others run after them. -/
theorem sortedByOrder_append {early late : List Action}
    (before : ∀ a ∈ early, ∀ b ∈ late, a.order ≤ b.order) :
    sortedByOrder (early ++ late) = sortedByOrder early ++ sortedByOrder late := by
  refine sortedByOrder_eq (List.pairwise_append.mpr ⟨pairwise_sortedByOrder early,
    pairwise_sortedByOrder late, fun a inEarly b inLate => ?_⟩) fun order => ?_
  · exact before a ((sortedByOrder_perm early).mem_iff.mp inEarly) b
      ((sortedByOrder_perm late).mem_iff.mp inLate)
  · have parts : withOrder order (sortedByOrder early) ++ withOrder order (sortedByOrder late) =
        withOrder order early ++ withOrder order late := by
      rw [withOrder_sortedByOrder, withOrder_sortedByOrder]
    simpa [withOrder] using parts

/-- The execution order can be cut at any order number. -/
theorem sortedByOrder_cut (order : Int) (actions : List Action) :
    sortedByOrder actions = sortedByOrder (actions.filter (·.order ≤ order)) ++
      sortedByOrder (actions.filter (order < ·.order)) := by
  rw [← sortedByOrder_append]
  · refine sortedByOrder_eq (pairwise_sortedByOrder _) fun other => ?_
    have low := withOrder_filter (fun number => decide (number ≤ order)) other actions
    have high := withOrder_filter (fun number => decide (order < number)) other actions
    rw [withOrder_sortedByOrder, withOrder, List.filter_append]
    rw [withOrder] at low high
    rw [low, high]
    by_cases side : other ≤ order
    · simp [side, Int.not_lt.mpr side]
    · simp [side, Int.not_le.mp side]
  · intro a low b high
    have low := (List.mem_filter.mp low).2
    have high := (List.mem_filter.mp high).2
    simp only [decide_eq_true_eq] at low high
    omega

/-- An action that is stored behind others, between some that are no greater and some that are
greater, runs right behind the former and those of the others that are no greater. -/
theorem sortedByOrder_among (stored : List Action) {early late : List Action} {a : Action}
    (low : ∀ b ∈ early, b.order ≤ a.order) (high : ∀ b ∈ late, a.order < b.order) :
    sortedByOrder (stored ++ (early ++ a :: late)) =
      sortedByOrder (stored.filter (·.order ≤ a.order) ++ early) ++
        a :: sortedByOrder (stored.filter (a.order < ·.order) ++ late) := by
  have upTo : (stored ++ (early ++ a :: late)).filter (·.order ≤ a.order) =
      stored.filter (·.order ≤ a.order) ++ early ++ [a] := by
    have kept : early.filter (·.order ≤ a.order) = early :=
      List.filter_eq_self.mpr fun b member => by simpa using low b member
    have dropped : late.filter (·.order ≤ a.order) = [] :=
      List.filter_eq_nil_iff.mpr fun b member => by simpa using high b member
    simp [kept, dropped]
  have beyond : (stored ++ (early ++ a :: late)).filter (a.order < ·.order) =
      stored.filter (a.order < ·.order) ++ late := by
    have dropped : early.filter (a.order < ·.order) = [] :=
      List.filter_eq_nil_iff.mpr fun b member => by simpa using low b member
    have kept : late.filter (a.order < ·.order) = late :=
      List.filter_eq_self.mpr fun b member => by simpa using high b member
    simp [kept, dropped]
  have last : ∀ b ∈ stored.filter (·.order ≤ a.order) ++ early, ∀ c ∈ [a],
      b.order ≤ c.order := by
    intro b member c single
    rw [List.mem_singleton.mp single]
    rcases List.mem_append.mp member with inStored | inEarly
    · simpa using (List.mem_filter.mp inStored).2
    · exact low b inEarly
  have alone : sortedByOrder [a] = [a] :=
    sortedByOrder_eq (List.pairwise_singleton _ a) fun _ => rfl
  rw [sortedByOrder_cut a.order, upTo, beyond, sortedByOrder_append last, alone, List.append_assoc]
  rfl

/-! ## Numbers that count on -/

/-- The order numbers of some actions count on from a start, one for each place. -/
def CountsFrom (start : Nat) (actions : List Action) : Prop :=
  ∀ (place : Nat) (inside : place < actions.length),
    actions[place].order = (start + place : Nat)

theorem countsFrom_nil (start : Nat) : CountsFrom start [] :=
  fun _ inside => absurd inside (Nat.not_lt_zero _)

theorem countsFrom_append {start : Nat} {early late : List Action} :
    CountsFrom start (early ++ late) ↔
      CountsFrom start early ∧ CountsFrom (start + early.length) late := by
  constructor
  · refine fun counts => ⟨fun place inside => ?_, fun place inside => ?_⟩
    · have same := counts place (by rw [List.length_append]; omega)
      rwa [List.getElem_append_left inside] at same
    · have same := counts (early.length + place) (by rw [List.length_append]; omega)
      rw [List.getElem_append_right (Nat.le_add_right _ _)] at same
      simpa [Nat.add_assoc] using same
  · rintro ⟨first, second⟩ place inside
    rcases Nat.lt_or_ge place early.length with left | right
    · rw [List.getElem_append_left left]
      exact first place left
    · rw [List.getElem_append_right right, second]
      omega

/-- Actions that count on from the length of others whose numbers are their places. -/
theorem countsFrom_behind {early late : List Action} (counts : CountsFrom 0 early)
    (on : CountsFrom early.length late) : CountsFrom 0 (early ++ late) := by
  refine countsFrom_append.mpr ⟨counts, ?_⟩
  rwa [Nat.zero_add]

namespace CountsFrom

variable {start : Nat} {actions : List Action} (counts : CountsFrom start actions)
include counts

/-- Numbers that count on rise at every place. -/
theorem pairwise_lt : actions.Pairwise fun a b => a.order < b.order := by
  refine List.pairwise_iff_getElem.mpr fun first second firstInside secondInside before => ?_
  rw [counts, counts]
  omega

/-- An action that takes the place of another with its number keeps the count. -/
theorem set {place : Nat} {a : Action} (number : a.order = (start + place : Nat)) :
    CountsFrom start (actions.set place a) := by
  intro other within
  rw [List.getElem_set]
  split
  · next here =>
    rw [← here]
    exact number
  · exact counts other (by simpa using within)

/-- Actions whose numbers count on are in execution order. -/
theorem sortedByOrder_eq : sortedByOrder actions = actions :=
  TurnScript.sortedByOrder_eq (counts.pairwise_lt.imp Int.le_of_lt) fun _ => rfl

/-- Actions that are stored behind others and count on from a start: each of them runs right behind
those that are stored before it and have no greater number. -/
theorem sortedByOrder_append (stored : List Action) (place : Nat)
    (inside : place < actions.length) :
    sortedByOrder (stored ++ actions) =
      sortedByOrder (stored.filter (·.order ≤ actions[place].order) ++ actions.take place) ++
        actions[place] ::
          sortedByOrder (stored.filter (actions[place].order < ·.order) ++
            actions.drop (place + 1)) := by
  have parts : actions.take place ++ actions[place] :: actions.drop (place + 1) = actions := by
    simp
  have rising := counts.pairwise_lt
  rw [← parts, List.pairwise_append, List.pairwise_cons] at rising
  obtain ⟨-, ⟨high, -⟩, low⟩ := rising
  have among := sortedByOrder_among stored
    (fun b member => Int.le_of_lt (low b member _ List.mem_cons_self)) high
  rwa [parts] at among

/-- Actions that are stored behind others and count on from a start run behind all of these exactly
if none of these has a greater number than the start. -/
theorem sortedByOrder_append_iff (stored : List Action) :
    sortedByOrder (stored ++ actions) = sortedByOrder stored ++ actions ↔
      actions = [] ∨ ∀ a ∈ stored, a.order ≤ start := by
  constructor
  · intro last
    cases actions with
    | nil => exact .inl rfl
    | cons first rest =>
      refine .inr fun a member => ?_
      have rising := pairwise_sortedByOrder (stored ++ first :: rest)
      rw [last, List.pairwise_append] at rising
      have atMost := rising.2.2 a ((sortedByOrder_perm stored).mem_iff.mpr member) first
        List.mem_cons_self
      have number : first.order = start := counts 0 (Nat.zero_lt_succ _)
      rwa [number] at atMost
  · rintro (rfl | atMost)
    · rw [List.append_nil, List.append_nil]
    · rw [TurnScript.sortedByOrder_append, counts.sortedByOrder_eq]
      intro a inStored b inActions
      obtain ⟨place, inside, rfl⟩ := List.getElem_of_mem inActions
      rw [counts]
      have := atMost a inStored
      omega

end CountsFrom
end TurnScript
