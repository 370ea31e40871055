import Mathlib.Data.List.Induction
import TurnScript.Play.Attack

/-!
# Targets

Without a name, an attack goes to one of the valid hostiles of whoever makes it. The first of its
priorities that is known decides: of the hostiles that are best by its number, the earliest in scene
order is picked, whether less or more is better. Priorities that are not known are passed over, and
without a known one the first hostile is picked.

A named target is taken as it is: whom the priorities would pick does not matter, nor whether the
named token is a hostile. It only has to be in the scene and alive.
-/

namespace TurnScript

/-! ## The earliest of the best -/

namespace Preference

variable {α : Type} {preference : Preference} {score : α → Int} {items : List α} {best : α}

/-- Whether one number is preferred to another. -/
def Prefers : Preference → Int → Int → Prop
  | least, a, b => a < b
  | greatest, a, b => b < a

/-- Whether an item is the earliest of the best in a list: it is preferred to all before it, and
none behind it is preferred to it. -/
def IsEarliestBest (preference : Preference) (score : α → Int) (items : List α) (best : α) : Prop :=
  ∃ before behind, items = before ++ best :: behind ∧
    (∀ item ∈ before, preference.Prefers (score best) (score item)) ∧
    ∀ item ∈ behind, ¬ preference.Prefers (score item) (score best)

/-- What is preferred to something is preferred to all that is not preferred to that. -/
theorem Prefers.of_not {a b c : Int} (first : preference.Prefers a b)
    (second : ¬ preference.Prefers c b) : preference.Prefers a c := by
  cases preference <;> simp only [Prefers] at first second ⊢ <;> omega

theorem Prefers.trans {a b c : Int} (first : preference.Prefers a b)
    (second : preference.Prefers b c) : preference.Prefers a c := by
  cases preference <;> simp only [Prefers] at first second ⊢ <;> omega

theorem IsEarliestBest.mem (earliest : preference.IsEarliestBest score items best) :
    best ∈ items := by
  obtain ⟨before, behind, rfl, -, -⟩ := earliest
  exact List.mem_append_right _ List.mem_cons_self

/-- One more item behind the others is the best if it is preferred to the best so far. -/
theorem IsEarliestBest.better {item : α} (earliest : preference.IsEarliestBest score items best)
    (better : preference.Prefers (score item) (score best)) :
    preference.IsEarliestBest score (items ++ [item]) item := by
  obtain ⟨before, behind, rfl, ahead, least⟩ := earliest
  refine ⟨before ++ best :: behind, [], rfl, ?_, fun other none => absurd none List.not_mem_nil⟩
  intro other member
  rcases List.mem_append.mp member with early | late
  · exact better.trans (ahead other early)
  · rcases List.mem_cons.mp late with rfl | late
    · exact better
    · exact better.of_not (least other late)

/-- One more item behind the others changes nothing if it is not preferred. -/
theorem IsEarliestBest.worse {item : α} (earliest : preference.IsEarliestBest score items best)
    (worse : ¬ preference.Prefers (score item) (score best)) :
    preference.IsEarliestBest score (items ++ [item]) best := by
  obtain ⟨before, behind, rfl, ahead, least⟩ := earliest
  refine ⟨before, behind ++ [item], by simp, ahead, ?_⟩
  intro other member
  rcases List.mem_append.mp member with late | last
  · exact least other late
  · rw [List.mem_singleton.mp last]
    exact worse

/-- A list has one earliest best item. -/
theorem IsEarliestBest.unique {other : α} (first : preference.IsEarliestBest score items best)
    (second : preference.IsEarliestBest score items other) : best = other := by
  obtain ⟨before, behind, rfl, ahead, least⟩ := first
  obtain ⟨before', behind', same, ahead', least'⟩ := second
  -- If one of them stood before the other, it would be both preferred and not.
  rcases List.append_eq_append_iff.mp same with ⟨between, rfl, rest⟩ | ⟨between, rfl, rest⟩
  · cases between with
    | nil => exact (List.cons.inj rest).1
    | cons item between =>
      obtain ⟨rfl, rfl⟩ := List.cons.inj rest
      exact absurd (ahead' best (by simp)) (least other (by simp))
  · cases between with
    | nil => exact (List.cons.inj rest).1.symm
    | cons item between =>
      obtain ⟨rfl, rfl⟩ := List.cons.inj rest
      exact absurd (ahead other (by simp)) (least' best (by simp))

/-- The search for the best finds the earliest. The induction takes the list from its end, as the
search keeps the best of what it has passed. -/
theorem exists_best? (preference : Preference) (score : α → Int) (first : α) (rest : List α) :
    ∃ best, preference.best? score (first :: rest) = some best ∧
      preference.IsEarliestBest score (first :: rest) best := by
  induction rest using List.reverseRecOn with
  | nil =>
    refine ⟨first, rfl, [], [], rfl, ?_, ?_⟩ <;> intro item none <;> cases none
  | append_singleton rest item inductionHypothesis =>
    obtain ⟨best, found, earliest⟩ := inductionHypothesis
    rw [best?, Option.some.injEq] at found
    rw [best?, List.foldl_append, found, List.foldl_cons, List.foldl_nil, ← List.cons_append]
    by_cases better : preference.Prefers (score item) (score best)
    · refine ⟨item, ?_, earliest.better better⟩
      cases preference <;> simp only [Prefers] at better <;> simp [better]
    · refine ⟨best, ?_, earliest.worse better⟩
      cases preference <;> simp only [Prefers] at better <;> simp [better]

theorem best?_eq_none_iff : preference.best? score items = none ↔ items = [] := by
  cases items with
  | nil => simp [best?]
  | cons first rest => simp [best?]

/-- The best of a list is the earliest best. -/
theorem best?_eq_some_iff :
    preference.best? score items = some best ↔ preference.IsEarliestBest score items best := by
  cases items with
  | nil =>
    constructor
    · intro found
      cases found
    · intro earliest
      cases earliest.mem
  | cons first rest =>
    obtain ⟨chosen, found, earliest⟩ := exists_best? preference score first rest
    constructor
    · intro also
      rw [found, Option.some.injEq] at also
      exact also ▸ earliest
    · intro also
      rw [found, earliest.unique also]

end Preference

/-! ## Known priorities -/

namespace TargetPriority

variable {priority : TargetPriority} {preference : Preference} {criterion : Criterion}

/-- What the known priorities ask for. Two of them have an older name for armor class. -/
inductive Asks : TargetPriority → Preference → Criterion → Prop
  | nearest : Asks nearest .least .distance
  | furthest : Asks furthest .greatest .distance
  | lowestHP : Asks lowestHP .least .hp
  | highestHP : Asks highestHP .greatest .hp
  | lowestAC : Asks lowestAC .least .ac
  | highestAC : Asks highestAC .greatest .ac
  | lowestDefense : Asks (other "lowestDefense") .least .ac
  | highestDefense : Asks (other "highestDefense") .greatest .ac

/-- Whether a priority asks for anything. -/
def IsKnown (priority : TargetPriority) : Prop :=
  ∃ preference criterion, priority.Asks preference criterion

theorem ranking?_eq_some_iff :
    priority.ranking? = some (preference, criterion) ↔ priority.Asks preference criterion := by
  constructor
  · intro ranked
    cases priority with
    | nearest | furthest | lowestHP | highestHP | lowestAC | highestAC =>
      cases ranked
      constructor
    | other name =>
      rw [ranking?] at ranked
      by_cases low : name = "lowestDefense"
      · rw [if_pos low] at ranked
        cases ranked
        exact low ▸ .lowestDefense
      by_cases high : name = "highestDefense"
      · rw [if_neg low, if_pos high] at ranked
        cases ranked
        exact high ▸ .highestDefense
      · rw [if_neg low, if_neg high] at ranked
        cases ranked
  · intro asks
    cases asks <;> decide

theorem ranking?_eq_none_iff : priority.ranking? = none ↔ ¬ priority.IsKnown := by
  rw [Option.eq_none_iff_forall_ne_some]
  constructor
  · rintro unranked ⟨preference, criterion, asks⟩
    exact unranked _ (ranking?_eq_some_iff.mpr asks)
  · rintro unknown ⟨preference, criterion⟩ ranked
    exact unknown ⟨preference, criterion, ranking?_eq_some_iff.mp ranked⟩

end TargetPriority

/-! ## Picks -/

namespace Board

variable {b : Board} {subject target : TokenRef} {candidates : List TokenRef}
  {priorities : List TargetPriority} {reveal : Bool}

/-- Whom priorities pick among candidates. -/
inductive Picks (b : Board) (subject : TokenRef) (candidates : List TokenRef) (target : TokenRef) :
    List TargetPriority → Prop
  /-- The first one that is known decides. -/
  | ranked {passed rest : List TargetPriority} {priority : TargetPriority}
      {preference : Preference} {criterion : Criterion} (unknown : ∀ p ∈ passed, ¬ p.IsKnown)
      (asks : priority.Asks preference criterion)
      (best : preference.IsEarliestBest (criterion.score b subject) candidates target) :
      Picks b subject candidates target (passed ++ priority :: rest)
  /-- None is known, and the first candidate is picked. -/
  | first {priorities : List TargetPriority} {others : List TokenRef}
      (unknown : ∀ p ∈ priorities, ¬ p.IsKnown) (leads : candidates = target :: others) :
      Picks b subject candidates target priorities

theorem selectTarget_eq_some_iff :
    b.selectTarget subject candidates priorities = some target ↔
      b.Picks subject candidates target priorities := by
  unfold selectTarget
  split
  · next preference criterion ranked =>
    obtain ⟨passed, priority, rest, rfl, ranking, unranked⟩ :=
      List.findSome?_eq_some_iff.mp ranked
    have asks := TargetPriority.ranking?_eq_some_iff.mp ranking
    have unknown : ∀ p ∈ passed, ¬ p.IsKnown := fun p member =>
      TargetPriority.ranking?_eq_none_iff.mp (unranked p member)
    rw [Preference.best?_eq_some_iff]
    constructor
    · intro best
      exact .ranked unknown asks best
    · intro picks
      generalize same : passed ++ priority :: rest = priorities at ranked picks
      cases picks with
      | ranked unknown' asks' best =>
        rw [List.findSome?_append, List.findSome?_eq_none_iff.mpr fun p member =>
          TargetPriority.ranking?_eq_none_iff.mpr (unknown' p member), Option.none_or,
          List.findSome?_cons, TargetPriority.ranking?_eq_some_iff.mpr asks'] at ranked
        obtain ⟨rfl, rfl⟩ := Prod.mk.inj (Option.some.inj ranked)
        exact best
      | first unknown' leads =>
        subst same
        exact absurd ⟨preference, criterion, asks⟩ (unknown' priority (by simp))
  · next unranked =>
    have unknown : ∀ p ∈ priorities, ¬ p.IsKnown := fun p member =>
      TargetPriority.ranking?_eq_none_iff.mp (List.findSome?_eq_none_iff.mp unranked p member)
    rw [List.head?_eq_some_iff]
    constructor
    · rintro ⟨others, leads⟩
      exact .first unknown leads
    · intro picks
      cases picks with
      | ranked unknown' asks best => exact absurd ⟨_, _, asks⟩ (unknown _ (by simp))
      | first unknown' leads => exact ⟨_, leads⟩

theorem selectTarget_eq_none_iff :
    b.selectTarget subject candidates priorities = none ↔ candidates = [] := by
  unfold selectTarget
  split
  · exact Preference.best?_eq_none_iff
  · exact List.head?_eq_none_iff

/-- Whoever is picked is one of the candidates. -/
theorem mem_of_selectTarget
    (selected : b.selectTarget subject candidates priorities = some target) :
    target ∈ candidates := by
  cases selectTarget_eq_some_iff.mp selected with
  | ranked unknown asks best => exact best.mem
  | first unknown leads => exact leads ▸ List.mem_cons_self

/-- Whether a token of the scene can be a target of another one of its own accord: another token,
alive, of the side with the opposite number, and visible or revealed. -/
structure Faces (b : Board) (subject other : TokenRef) (reveal : Bool) : Prop where
  listed : other ∈ b.scene.tokens
  another : (b.token other).id ≠ (b.token subject).id
  opposed : (b.token other).disposition.number = -(b.token subject).disposition.number
  alive : 0 < (b.token other).hp
  seen : (b.token other).hidden = true → reveal = true

theorem eq_opposed_iff {one other : Disposition} :
    other = one.opposed ↔ other.number = -one.number := by
  cases one <;> cases other <;> decide

theorem mem_hostilesOf_iff {other : TokenRef} :
    other ∈ b.hostilesOf subject reveal ↔ b.Faces subject other reveal := by
  rw [mem_hostilesOf]
  simp only [isHostile, Token.alive, Bool.and_eq_true, bne_iff_ne, beq_iff_eq, decide_eq_true_eq,
    Bool.or_eq_true, Bool.not_eq_true', eq_opposed_iff]
  constructor
  · rintro ⟨listed, ⟨⟨another, opposed⟩, alive⟩, seen⟩
    refine ⟨listed, another, opposed, alive, fun hidden => ?_⟩
    rcases seen with plain | revealed
    · rw [hidden] at plain
      cases plain
    · exact revealed
  · rintro ⟨listed, another, opposed, alive, seen⟩
    refine ⟨listed, ⟨⟨another, opposed⟩, alive⟩, ?_⟩
    cases hidden : (b.token other).hidden with
    | false => exact .inl rfl
    | true => exact .inr (seen hidden)

/-- An attack that names no target has none exactly if there is no valid hostile. Otherwise its
target is the hostile that its priorities pick, whatever they are, and a hostile is exactly another
living token of the scene, of the opposite side, that is visible or revealed; they stand in scene
order. A named target is the token that the scene holds alive under that name, whatever the
priorities. -/
theorem targets_are_picked (b : Board) (subject : TokenRef) (payload : AttackPayload)
    (reveal : Bool) :
    (nonempty payload.targetId = none →
      (b.findTarget subject payload reveal = none ↔ b.hostilesOf subject reveal = []) ∧
      (∀ target, b.findTarget subject payload reveal = some target ↔
        b.Picks subject (b.hostilesOf subject reveal) target payload.priorities) ∧
      ∀ target, b.findTarget subject payload reveal = some target →
        b.Faces subject target reveal) ∧
    (∀ other, other ∈ b.hostilesOf subject reveal ↔ b.Faces subject other reveal) ∧
    (b.hostilesOf subject reveal).Sublist b.scene.tokens ∧
    ∀ id, nonempty payload.targetId = some id →
      ∀ target, b.findTarget subject payload reveal = some target ↔
        b.scene.tokenRef? id = some target ∧ 0 < (b.token target).hp := by
  refine ⟨fun unnamed => ?_, fun other => mem_hostilesOf_iff, List.filter_sublist,
    fun id named target => ?_⟩
  · have selected : b.findTarget subject payload reveal =
        b.selectTarget subject (b.hostilesOf subject reveal) payload.priorities := by
      rw [findTarget, unnamed]
    rw [selected]
    refine ⟨selectTarget_eq_none_iff, fun target => selectTarget_eq_some_iff, ?_⟩
    intro target found
    exact mem_hostilesOf_iff.mp (mem_of_selectTarget found)
  · have taken : b.findTarget subject payload reveal = b.livingToken? id := by
      rw [findTarget, named]
    rw [taken, livingToken?, Option.filter_eq_some_iff, Token.alive, decide_eq_true_iff]

/-- A hero at the left, and to the right of him a hidden orc next to him, a felled orc, two orcs of
the same armor class, of whom the second is nearer, and an ally. -/
def ridge : Board where
  roster := [
    { id := "hero", name := "Hero", disposition := .friendly },
    { id := "scout", name := "Scout", position := ⟨1, 0⟩, ac := 8, hidden := true },
    { id := "fallen", name := "Fallen", position := ⟨2, 0⟩, ac := 9, hp := 0 },
    { id := "guard", name := "Guard", position := ⟨6, 0⟩, ac := 12 },
    { id := "chief", name := "Chief", position := ⟨4, 3⟩, ac := 12 },
    { id := "cleric", name := "Cleric", position := ⟨3, 0⟩, disposition := .friendly }]
  scene.nodes := [("hero", .token 0), ("scout", .token 1), ("fallen", .token 2),
    ("guard", .token 3), ("chief", .token 4), ("cleric", .token 5)]

theorem targets_are_picked_ridge :
    nonempty (none : Option String) = none ∧
      ridge.Picks 0 (ridge.hostilesOf 0 false) 3 [.other "weakest", .other "lowestDefense", .nearest] ∧
      ridge.Faces 0 3 false ∧ ridge.findTarget 0 { targetId := some "cleric" } false = some 5 := by
  obtain ⟨unnamed, -⟩ := targets_are_picked ridge 0
    { priorities := [.other "weakest", .other "lowestDefense", .nearest] } false
  obtain ⟨-, picks, faces⟩ := unnamed (by decide)
  obtain ⟨-, -, -, named⟩ := targets_are_picked ridge 0 { targetId := some "cleric" } false
  have found : ridge.findTarget 0
      { priorities := [.other "weakest", .other "lowestDefense", .nearest] } false = some 3 := by
    decide
  exact ⟨by decide, (picks 3).mp found, faces 3 found,
    (named "cleric" (by decide) 5).mpr ⟨by decide, by decide⟩⟩

end Board
end TurnScript
