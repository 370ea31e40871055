import Mathlib.Data.List.Induction
import TurnScript.Board.Scene

/-!
# Chronicles of a scene

What was done to a scene, act after act, and what can be read from that without looking at the
scene: which act was the last one about an id, who stands and when each id entered, and which
owner was linked to what since neither was taken out. Each reading has one law for a chronicle
with one more act.
-/

namespace TurnScript.Scene

/-! ### What came last -/

section Lasts

variable {α : Type} {keeps : α → Prop} {x y : α} {xs : List α}

/-- An element of a list with only such elements after it as keep it. -/
def Lasts (keeps : α → Prop) (x : α) (xs : List α) : Prop :=
  ∃ before later, xs = before ++ x :: later ∧ ∀ y ∈ later, keeps y

/-- An element of a longer list is its last one, or an element of the list before. -/
theorem append_singleton_eq_append_cons {before later : List α} :
    xs ++ [y] = before ++ x :: later ↔
      (before = xs ∧ x = y ∧ later = []) ∨
        ∃ rest, later = rest ++ [y] ∧ xs = before ++ x :: rest := by
  constructor
  · intro same
    rcases List.eq_nil_or_concat later with rfl | ⟨rest, last, rfl⟩
    · obtain ⟨front, back⟩ := List.append_inj' same rfl
      exact .inl ⟨front.symm, (List.cons.inj back).1.symm, rfl⟩
    · rw [List.concat_eq_append, ← List.cons_append, ← List.append_assoc] at same
      obtain ⟨front, back⟩ := List.append_inj' same rfl
      rw [← (List.cons.inj back).1]
      exact .inr ⟨rest, List.concat_eq_append, front⟩
  · rintro (⟨rfl, rfl, rfl⟩ | ⟨rest, rfl, rfl⟩)
    · rfl
    · simp

theorem not_lasts_nil : ¬ Lasts keeps x [] := by
  rintro ⟨before, later, same, -⟩
  simp at same

/-- What lasts is what came in at the end, or what lasted and is kept. -/
theorem lasts_append_singleton :
    Lasts keeps x (xs ++ [y]) ↔ x = y ∨ (Lasts keeps x xs ∧ keeps y) := by
  constructor
  · rintro ⟨before, later, same, kept⟩
    rcases append_singleton_eq_append_cons.mp same with ⟨-, rfl, -⟩ | ⟨rest, rfl, rfl⟩
    · exact .inl rfl
    · refine .inr ⟨⟨before, rest, rfl, fun z member => ?_⟩, ?_⟩
      · exact kept z (List.mem_append_left _ member)
      · exact kept y (List.mem_append_right _ List.mem_cons_self)
  · rintro (rfl | ⟨⟨before, rest, rfl, kept⟩, keptNow⟩)
    · exact ⟨xs, [], rfl, fun z member => absurd member List.not_mem_nil⟩
    · refine ⟨before, rest ++ [y], by simp, fun z member => ?_⟩
      rcases List.mem_append.mp member with inRest | last
      · exact kept z inRest
      · exact List.mem_singleton.mp last ▸ keptNow

end Lasts

/-! ### Who stands, and since when -/

/-- An id comes into the scene or goes out of it. Whoever stands may come again. -/
inductive Touch where
  | comes (id : String)
  | goes (id : String)
  deriving Repr, DecidableEq

section Standing

variable {ts : List Touch} {t : Touch} {id other : String} {m n : Nat}

/-- An id that came and has not gone since. -/
def Stands (ts : List Touch) (id : String) : Prop :=
  Lasts (· ≠ .goes id) (.comes id) ts

/-- The place at which an id came that did not stand then and has not gone since. -/
def EnteredAt (ts : List Touch) (id : String) (n : Nat) : Prop :=
  ∃ early late, ts = early ++ .comes id :: late ∧ early.length = n ∧
    ¬ Stands early id ∧ .goes id ∉ late

/-- One id entered before another one. -/
def Before (ts : List Touch) (id other : String) : Prop :=
  ∃ m n, EnteredAt ts id m ∧ EnteredAt ts other n ∧ m < n

theorem not_stands_nil : ¬ Stands [] id :=
  not_lasts_nil

theorem stands_append_singleton :
    Stands (ts ++ [t]) id ↔ .comes id = t ∨ (Stands ts id ∧ t ≠ .goes id) :=
  lasts_append_singleton

theorem stands_comes : Stands (ts ++ [.comes other]) id ↔ id = other ∨ Stands ts id := by
  simp [stands_append_singleton]

theorem stands_goes : Stands (ts ++ [.goes other]) id ↔ Stands ts id ∧ id ≠ other := by
  simp [stands_append_singleton, eq_comm]

/-- A place of entry is the end, for one who did not stand, or an older one of one who stays. -/
theorem enteredAt_append_singleton :
    EnteredAt (ts ++ [t]) id n ↔
      (.comes id = t ∧ n = ts.length ∧ ¬ Stands ts id) ∨ (EnteredAt ts id n ∧ t ≠ .goes id) := by
  constructor
  · rintro ⟨early, late, same, rfl, new, stays⟩
    rcases append_singleton_eq_append_cons.mp same with ⟨rfl, rfl, -⟩ | ⟨rest, rfl, rfl⟩
    · exact .inl ⟨rfl, rfl, new⟩
    · refine .inr ⟨⟨early, rest, rfl, rfl, new, fun gone => ?_⟩, ?_⟩
      · exact stays (List.mem_append_left _ gone)
      · rintro rfl
        exact stays (List.mem_append_right _ List.mem_cons_self)
  · rintro (⟨rfl, rfl, new⟩ | ⟨⟨early, rest, rfl, rfl, new, stays⟩, staysNow⟩)
    · exact ⟨ts, [], rfl, rfl, new, List.not_mem_nil⟩
    · refine ⟨early, rest ++ [t], by simp, rfl, new, fun gone => ?_⟩
      rcases List.mem_append.mp gone with earlier | last
      · exact stays earlier
      · exact staysNow (List.mem_singleton.mp last).symm

theorem EnteredAt.lt_length (entered : EnteredAt ts id n) : n < ts.length := by
  obtain ⟨early, late, rfl, rfl, -⟩ := entered
  simp

theorem EnteredAt.stands (entered : EnteredAt ts id n) : Stands ts id := by
  obtain ⟨early, late, rfl, -, -, stays⟩ := entered
  exact ⟨early, late, rfl, fun t member gone => stays (gone ▸ member)⟩

/-- Whoever stands has entered somewhere. -/
theorem Stands.enteredAt (stands : Stands ts id) : ∃ n, EnteredAt ts id n := by
  induction ts using List.reverseRecOn with
  | nil => exact absurd stands not_stands_nil
  | append_singleton earlier t inductionHypothesis =>
    -- Whoever comes again keeps the place of the first time.
    by_cases stood : Stands earlier id
    · rcases stands_append_singleton.mp stands with rfl | ⟨-, stays⟩
      · obtain ⟨n, entered⟩ := inductionHypothesis stood
        exact ⟨n, enteredAt_append_singleton.mpr (.inr ⟨entered, Touch.noConfusion⟩)⟩
      · obtain ⟨n, entered⟩ := inductionHypothesis stood
        exact ⟨n, enteredAt_append_singleton.mpr (.inr ⟨entered, stays⟩)⟩
    · rcases stands_append_singleton.mp stands with rfl | ⟨stoodAll, -⟩
      · exact ⟨_, enteredAt_append_singleton.mpr (.inl ⟨rfl, rfl, stood⟩)⟩
      · exact absurd stoodAll stood

/-- Nobody has entered at two places. -/
theorem EnteredAt.unique (first : EnteredAt ts id m) (second : EnteredAt ts id n) : m = n := by
  induction ts using List.reverseRecOn with
  | nil => exact absurd first.stands not_stands_nil
  | append_singleton earlier t inductionHypothesis =>
    rcases enteredAt_append_singleton.mp first with ⟨-, rfl, new⟩ | ⟨older, -⟩
    · rcases enteredAt_append_singleton.mp second with ⟨-, rfl, -⟩ | ⟨older, -⟩
      · rfl
      · exact absurd older.stands new
    · rcases enteredAt_append_singleton.mp second with ⟨-, rfl, new⟩ | ⟨other, -⟩
      · exact absurd older.stands new
      · exact inductionHypothesis older other

theorem Before.ne (before : Before ts id other) : id ≠ other := by
  rintro rfl
  obtain ⟨m, n, first, second, less⟩ := before
  exact absurd (first.unique second) (Nat.ne_of_lt less)

/-- Who entered before whom does not change as long as both stay. -/
theorem Before.append (before : Before ts id other) (stays : t ≠ .goes id)
    (otherStays : t ≠ .goes other) : Before (ts ++ [t]) id other := by
  obtain ⟨m, n, first, second, less⟩ := before
  exact ⟨m, n, enteredAt_append_singleton.mpr (.inr ⟨first, stays⟩),
    enteredAt_append_singleton.mpr (.inr ⟨second, otherStays⟩), less⟩

/-- A row of ids that holds exactly those who stand, in order of entering. -/
structure Lists (ts : List Touch) (ids : List String) : Prop where
  mem_iff : ∀ id, id ∈ ids ↔ Stands ts id
  ordered : ids.Pairwise (Before ts)

namespace Lists

variable {ids : List String}

theorem nil : Lists [] [] where
  mem_iff _ := iff_of_false List.not_mem_nil not_stands_nil
  ordered := List.Pairwise.nil

theorem nodup (lists : Lists ts ids) : ids.Nodup :=
  lists.ordered.imp Before.ne

/-- Whoever comes stands at the end of the row, unless it stood before. -/
theorem comes (lists : Lists ts ids) (id : String) :
    Lists (ts ++ [.comes id]) (if id ∈ ids then ids else ids ++ [id]) := by
  have kept : ids.Pairwise (Before (ts ++ [.comes id])) :=
    lists.ordered.imp fun before => before.append Touch.noConfusion Touch.noConfusion
  by_cases known : id ∈ ids
  · rw [if_pos known]
    refine ⟨fun other => ?_, kept⟩
    rw [stands_comes, ← lists.mem_iff]
    constructor
    · exact .inr
    · rintro (rfl | member)
      · exact known
      · exact member
  · rw [if_neg known]
    refine ⟨fun other => ?_, List.pairwise_append.mpr ⟨kept, List.pairwise_singleton _ id, ?_⟩⟩
    · rw [stands_comes, ← lists.mem_iff, List.mem_append, List.mem_singleton, or_comm]
    · intro other member last final
      obtain rfl := List.mem_singleton.mp final
      obtain ⟨n, entered⟩ := ((lists.mem_iff other).mp member).enteredAt
      have new : ¬ Stands ts last := fun stood => known ((lists.mem_iff last).mpr stood)
      exact ⟨n, ts.length, enteredAt_append_singleton.mpr (.inr ⟨entered, Touch.noConfusion⟩),
        enteredAt_append_singleton.mpr (.inl ⟨rfl, rfl, new⟩), entered.lt_length⟩

/-- Whoever goes leaves the row, and the others stay as they stand. -/
theorem goes (lists : Lists ts ids) (id : String) :
    Lists (ts ++ [.goes id]) (ids.filter (· != id)) where
  mem_iff other := by
    rw [stands_goes, ← lists.mem_iff, List.mem_filter, bne_iff_ne]
  ordered := by
    refine List.pairwise_filter.mpr (lists.ordered.imp fun before left right => ?_)
    refine before.append ?_ ?_ <;> rintro ⟨rfl⟩
    · exact absurd left (by simp)
    · exact absurd right (by simp)

end Lists

end Standing

/-! ### Acts -/

/-- What is done to a scene: a token or an item is put under its id, or an id is taken out. -/
inductive Act where
  | token (id : String) (ref : TokenRef)
  | item (item : Item) (owner : Option String)
  | removal (id : String)
  deriving Repr, DecidableEq

/-- The id that an act is about. -/
def Act.subject : Act → String
  | .token id _ => id
  | .item added _ => added.id
  | .removal id => id

/-- What an act leaves under the id that it is about. -/
def Act.puts : Act → Occupant
  | .token _ ref => .token ref
  | .item added _ => .item added
  | .removal _ => .nothing

/-- Who comes and goes by an act: an item comes before an owner that it names. -/
def Act.touches : Act → List Touch
  | .token id _ => [.comes id]
  | .item added none => [.comes added.id]
  | .item added (some owner) => [.comes added.id, .comes owner]
  | .removal id => [.goes id]

/-- Who came and went in a chronicle. -/
def touches (c : List Act) : List Touch :=
  c.flatMap Act.touches

section Acts

variable {c : List Act} {act last : Act} {id owner owned : String}

/-- The last act of a chronicle about an id. -/
def IsLast (c : List Act) (id : String) (act : Act) : Prop :=
  act.subject = id ∧ Lasts (·.subject ≠ id) act c

/-- What the last act about an id left under it. -/
def Decides (c : List Act) (id : String) (occupant : Occupant) : Prop :=
  ∃ act, IsLast c id act ∧ act.puts = occupant

/-- An owner that some item was added with, and neither of them was taken out since. -/
def Linked (c : List Act) (owner owned : String) : Prop :=
  ∃ item : Item, item.id = owned ∧
    Lasts (fun act => act ≠ .removal owner ∧ act ≠ .removal owned) (.item item (some owner)) c

@[simp] theorem touches_append_singleton :
    touches (c ++ [act]) = touches c ++ act.touches := by
  simp [touches]

theorem not_isLast_nil : ¬ IsLast [] id act :=
  fun last => not_lasts_nil last.2

theorem not_linked_nil : ¬ Linked [] owner owned := by
  rintro ⟨item, -, lasts⟩
  exact not_lasts_nil lasts

/-- An act about an id is the last one about it; one about another id changes nothing. -/
theorem isLast_append_singleton :
    IsLast (c ++ [act]) id last ↔ if act.subject = id then last = act else IsLast c id last := by
  unfold IsLast
  rw [lasts_append_singleton]
  by_cases about : act.subject = id
  · rw [if_pos about]
    constructor
    · rintro ⟨-, rfl | ⟨-, other⟩⟩
      · rfl
      · exact absurd about other
    · rintro rfl
      exact ⟨about, .inl rfl⟩
  · rw [if_neg about]
    constructor
    · rintro ⟨subject, rfl | ⟨lasts, -⟩⟩
      · exact absurd subject about
      · exact ⟨subject, lasts⟩
    · rintro ⟨subject, lasts⟩
      exact ⟨subject, .inr ⟨lasts, about⟩⟩

theorem not_decides_nil {occupant : Occupant} : ¬ Decides [] id occupant := by
  rintro ⟨act, isLast, -⟩
  exact not_isLast_nil isLast

theorem decides_append_singleton {occupant : Occupant} :
    Decides (c ++ [act]) id occupant ↔
      if act.subject = id then act.puts = occupant else Decides c id occupant := by
  simp only [Decides, isLast_append_singleton]
  split
  · exact exists_eq_left
  · exact Iff.rfl

/-- A token was left under an id by adding it under this id. -/
theorem decides_token {ref : TokenRef} :
    Decides c id (.token ref) ↔ IsLast c id (.token id ref) := by
  constructor
  · rintro ⟨act, isLast, puts⟩
    cases act with
    | token other _ =>
      obtain rfl : other = id := isLast.1
      cases puts
      exact isLast
    | item | removal => cases puts
  · intro isLast
    exact ⟨_, isLast, rfl⟩

/-- An item was left under an id by adding it, with an owner or without. -/
theorem decides_item {added : Item} :
    Decides c id (.item added) ↔ ∃ owner, IsLast c id (.item added owner) := by
  constructor
  · rintro ⟨act, isLast, puts⟩
    cases act with
    | item _ owner =>
      cases puts
      exact ⟨owner, isLast⟩
    | token | removal => cases puts
  · rintro ⟨owner, isLast⟩
    exact ⟨_, isLast, rfl⟩

/-- A link is new, or it is an old one of two that stay. -/
theorem linked_append_singleton :
    Linked (c ++ [act]) owner owned ↔
      (∃ item : Item, item.id = owned ∧ .item item (some owner) = act) ∨
        (Linked c owner owned ∧ act ≠ .removal owner ∧ act ≠ .removal owned) := by
  simp only [Linked, lasts_append_singleton, and_or_left, exists_or]
  apply or_congr_right
  constructor
  · rintro ⟨item, named, lasts, stay⟩
    exact ⟨⟨item, named, lasts⟩, stay⟩
  · rintro ⟨⟨item, named, lasts⟩, stay⟩
    exact ⟨item, named, lasts, stay⟩

/-- Only its own removal takes away an id that stands. -/
theorem stands_act : Stands (touches c ++ act.touches) id ↔
    .comes id ∈ act.touches ∨ (Stands (touches c) id ∧ act ≠ .removal id) := by
  cases act with
  | token other ref => simp [Act.touches, stands_comes]
  | item item named =>
    cases named with
    | none => simp [Act.touches, stands_comes]
    | some other =>
      have split : touches c ++ [.comes item.id, .comes other] =
          touches c ++ [.comes item.id] ++ [.comes other] := by simp
      simp only [Act.touches, split, stands_comes]
      simp [or_assoc, or_left_comm]
  | removal other => simp [Act.touches, stands_goes, eq_comm]

/-- Who is linked stands. -/
theorem Linked.stands (linked : Linked c owner owned) :
    Stands (touches c) owner ∧ Stands (touches c) owned := by
  induction c using List.reverseRecOn with
  | nil => exact absurd linked not_linked_nil
  | append_singleton earlier act inductionHypothesis =>
    rw [touches_append_singleton, stands_act, stands_act]
    rcases linked_append_singleton.mp linked with ⟨item, rfl, rfl⟩ | ⟨old, ownerStays, ownedStays⟩
    · exact ⟨.inl (by simp [Act.touches]), .inl (by simp [Act.touches])⟩
    · obtain ⟨ownerStood, ownedStood⟩ := inductionHypothesis old
      exact ⟨.inr ⟨ownerStood, ownerStays⟩, .inr ⟨ownedStood, ownedStays⟩⟩

/-- Something was left under an id that an owner is linked to. -/
theorem Linked.decides (linked : Linked c owner owned) :
    ∃ occupant, Decides c owned occupant ∧ occupant ≠ .nothing := by
  induction c using List.reverseRecOn with
  | nil => exact absurd linked not_linked_nil
  | append_singleton earlier act inductionHypothesis =>
    simp only [decides_append_singleton]
    -- What was linked may have been put in anew since, as a token even; a removal would have ended
    -- the link.
    by_cases about : act.subject = owned
    · refine ⟨act.puts, by rw [if_pos about], ?_⟩
      rcases linked_append_singleton.mp linked with ⟨item, -, rfl⟩ | ⟨-, -, stays⟩
      · exact Occupant.noConfusion
      · cases act with
        | token | item => exact Occupant.noConfusion
        | removal id => exact absurd (congrArg Act.removal about) stays
    · simp only [if_neg about]
      rcases linked_append_singleton.mp linked with ⟨item, rfl, rfl⟩ | ⟨old, -, -⟩
      · exact absurd rfl about
      · exact inductionHypothesis old

/-- A removal takes away every link of its id. -/
theorem not_linked_removal (owner owned : String) (gone : owner = id ∨ owned = id) :
    ¬ Linked (c ++ [.removal id]) owner owned := by
  rw [linked_append_singleton]
  rintro (⟨item, -, new⟩ | ⟨-, ownerStays, ownedStays⟩)
  · cases new
  · rcases gone with rfl | rfl
    · exact ownerStays rfl
    · exact ownedStays rfl

end Acts

end TurnScript.Scene
