import TurnScript.Proofs.Board.Registry

/-!
# Two ways to look up an owner

The links of a scene are read from both ends. What an id owns is whatever it is linked to; who owns
an id is told by the first link to it alone. Links outlast what is put under their ids: an item
that is added for another owner is then linked to both, and a token that takes the id of an item is
linked to the owner of that item. So the two lookups agree on an owner exactly if nobody else was
linked sooner, and what is owned is an item as long as no token took its place.

Where no act does either, ownership is what one expects: only items are owned, each by one owner,
and the lookups agree.
-/

namespace TurnScript

namespace Scene

variable {s : Scene} {c early late : List Act} {act : Act} {id owner other owned : String}

/-! ### Who was linked sooner -/

/-- A link outlasts everything but the removal of one of its ids. -/
theorem Linked.append (linked : Linked early owner owned)
    (stays : ∀ act ∈ late, act ≠ .removal owner ∧ act ≠ .removal owned) :
    Linked (early ++ late) owner owned := by
  obtain ⟨item, named, before, later, rfl, kept⟩ := linked
  refine ⟨item, named, before, later ++ late, by simp, fun act member => ?_⟩
  rcases List.mem_append.mp member with inLater | inLate
  · exact kept act inLater
  · exact stays act inLate

/-- One owner was linked to an id at a time at which another one was not, and is linked to it
still. -/
def Sooner (c : List Act) (owner other owned : String) : Prop :=
  ∃ early late, c = early ++ late ∧ Linked early owner owned ∧ ¬ Linked early other owned ∧
    ∀ act ∈ late, act ≠ .removal owner ∧ act ≠ .removal owned

theorem Sooner.linked (sooner : Sooner c owner other owned) : Linked c owner owned := by
  obtain ⟨early, late, rfl, linked, -, stays⟩ := sooner
  exact linked.append stays

/-- Of two owners only one was linked sooner. -/
theorem Sooner.asymm (sooner : Sooner c owner other owned) : ¬ Sooner c other owner owned := by
  rintro ⟨early₂, late₂, same, linked₂, unlinked₂, stays₂⟩
  obtain ⟨early₁, late₁, rfl, linked₁, unlinked₁, stays₁⟩ := sooner
  -- The later one of the two times lies behind the earlier one, at which one of the two was linked
  -- who has not been taken out since.
  rcases List.append_eq_append_iff.mp same with ⟨between, rfl, rfl⟩ | ⟨between, rfl, rfl⟩
  · exact unlinked₂ (linked₁.append fun act member => stays₁ act (List.mem_append_left _ member))
  · exact unlinked₁ (linked₂.append fun act member => stays₂ act (List.mem_append_left _ member))

theorem Sooner.ne (sooner : Sooner c owner other owned) : owner ≠ other := by
  rintro rfl
  exact sooner.asymm sooner

/-- Who was linked sooner does not change as long as the link stays. -/
theorem Sooner.append (sooner : Sooner c owner other owned) (ownerStays : act ≠ .removal owner)
    (ownedStays : act ≠ .removal owned) : Sooner (c ++ [act]) owner other owned := by
  obtain ⟨early, late, rfl, linked, unlinked, stays⟩ := sooner
  refine ⟨early, late ++ [act], by simp, linked, unlinked, fun next member => ?_⟩
  rcases List.mem_append.mp member with inLate | last
  · exact stays next inLate
  · exact List.mem_singleton.mp last ▸ ⟨ownerStays, ownedStays⟩

/-! ### Links in order -/

/-- The links to an id stand in the order in which its owners were linked. -/
def RanksOwners (s : Scene) (c : List Act) : Prop :=
  s.links.Pairwise fun first second => first.2 = second.2 → Sooner c first.1 second.1 first.2

namespace RanksOwners

theorem empty (cell : Int) : ({ cell } : Scene).RanksOwners [] :=
  List.Pairwise.nil

/-- An act that takes nothing out leaves the old links in order. -/
theorem keep (ranks : s.RanksOwners c) (adds : ∀ id, act ≠ .removal id) :
    s.RanksOwners (c ++ [act]) :=
  ranks.imp fun sooner same => (sooner same).append (adds _) (adds _)

/-- A new owner is linked later than all others. -/
theorem addItem (ranks : s.RanksOwners c) (follows : s.Follows c) (item : Item)
    (owner : Option String) : (s.addItem item owner).RanksOwners (c ++ [.item item owner]) := by
  have kept : s.RanksOwners (c ++ [.item item owner]) := ranks.keep fun _ => Act.noConfusion
  cases owner with
  | none => exact kept
  | some owner =>
    rw [RanksOwners, Scene.addItem, Scene.link]
    simp only [links_ensure, List.contains_iff_mem]
    split
    · rw [links_ensure]
      exact kept
    · next new =>
      refine List.pairwise_append.mpr ⟨kept, List.pairwise_singleton _ _, ?_⟩
      rintro ⟨holder, owned⟩ old last isLast same
      obtain rfl := List.mem_singleton.mp isLast
      obtain rfl : owned = item.id := same
      refine ⟨c, [.item item (some owner)], rfl, (follows.links holder _).mp old,
        mt (follows.links owner _).mpr new, fun act member => ?_⟩
      rw [List.mem_singleton.mp member]
      exact ⟨Act.noConfusion, Act.noConfusion⟩

/-- What is taken out leaves the other links in order. -/
theorem remove (ranks : s.RanksOwners c) (follows : s.Follows c) (id : String) :
    (s.remove id).2.RanksOwners (c ++ [.removal id]) := by
  rw [RanksOwners, follows.links_remove]
  refine List.pairwise_filter.mpr (ranks.imp fun sooner left right same => ?_)
  simp only [Bool.and_eq_true, bne_iff_ne] at left
  refine (sooner same).append ?_ ?_ <;> rintro ⟨rfl⟩
  · exact left.1 rfl
  · exact left.2 rfl

theorem nodup (ranks : s.RanksOwners c) : s.links.Nodup := by
  refine ranks.imp fun {first second} sooner same => ?_
  exact (sooner (congrArg Prod.snd same)).ne (congrArg Prod.fst same)

end RanksOwners

/-! ### The lookups -/

theorem mem_owned : owned ∈ s.owned owner ↔ (owner, owned) ∈ s.links := by
  simp [Scene.owned]

/-- Nothing is owned twice by the same owner. -/
theorem nodup_owned (distinct : s.links.Nodup) (owner : String) : (s.owned owner).Nodup := by
  refine List.Pairwise.filterMap _ (fun first second apart => ?_) distinct
  rintro _ here _ there rfl
  simp only [Option.ite_none_right_eq_some, beq_iff_eq, Option.some.injEq] at here there
  exact apart (Prod.ext (here.1.trans there.1.symm) (here.2.trans there.2.symm))

/-- The owner that is linked to an id and was linked sooner than every other one. -/
structure IsFirstOwner (c : List Act) (owner owned : String) : Prop where
  linked : Linked c owner owned
  sooner : ∀ other, Linked c other owned → other ≠ owner → Sooner c owner other owned

theorem IsFirstOwner.unique (first : IsFirstOwner c owner owned)
    (second : IsFirstOwner c other owned) : owner = other := by
  by_contra apart
  exact (first.sooner other second.linked (Ne.symm apart)).asymm
    (second.sooner owner first.linked apart)

/-- The first link to an id is that of its first owner. -/
theorem find?_links (follows : s.Follows c) (ranks : s.RanksOwners c) {pair : String × String}
    (found : s.links.find? (·.2 == owned) = some pair) :
    pair.2 = owned ∧ IsFirstOwner c pair.1 owned := by
  obtain ⟨here, before, after, split, passed⟩ := List.find?_eq_some_iff_append.mp found
  obtain ⟨owner, _⟩ := pair
  obtain rfl := beq_iff_eq.mp here
  refine ⟨rfl, (follows.links owner _).mp (by rw [split]; simp), fun other linked apart => ?_⟩
  have among := (follows.links other _).mpr linked
  rw [split, List.mem_append, List.mem_cons] at among
  rcases among with inBefore | same | inAfter
  · simpa using passed _ inBefore
  · exact absurd (Prod.mk.inj same).1 apart
  · have behind := ranks
    rw [RanksOwners, split, List.pairwise_append, List.pairwise_cons] at behind
    exact behind.2.1.1 _ inAfter rfl

/-- Who owns an id is told by its first owner, if that is a token. -/
theorem owner?_iff (follows : s.Follows c) (ranks : s.RanksOwners c) {ref : TokenRef} :
    s.owner? owned = some ref ↔
      ∃ owner, IsFirstOwner c owner owned ∧ s.tokenRef? owner = some ref := by
  rw [owner?]
  cases found : s.links.find? (·.2 == owned) with
  | none =>
    refine iff_of_false (Option.some_ne_none ref).symm ?_
    rintro ⟨owner, first, -⟩
    have linked := (follows.links owner owned).mpr first.linked
    simpa using List.find?_eq_none.mp found _ linked
  | some pair =>
    obtain ⟨-, first⟩ := find?_links follows ranks found
    constructor
    · exact fun told => ⟨pair.1, first, told⟩
    · rintro ⟨owner, other, told⟩
      obtain rfl := first.unique other
      exact told

/-- Somebody who is linked is the first owner, or somebody else was linked sooner. -/
theorem isFirstOwner_or_sooner (follows : s.Follows c) (ranks : s.RanksOwners c)
    (linked : Linked c owner owned) :
    IsFirstOwner c owner owned ∨ ∃ other, Sooner c other owner owned := by
  obtain ⟨pair, found⟩ : ∃ pair, s.links.find? (·.2 == owned) = some pair := by
    rw [← Option.isSome_iff_exists, List.find?_isSome]
    exact ⟨(owner, owned), (follows.links owner owned).mpr linked, by simp⟩
  obtain ⟨-, first⟩ := find?_links follows ranks found
  by_cases same : owner = pair.1
  · exact .inl (same ▸ first)
  · exact .inr ⟨pair.1, first.sooner owner linked same⟩

/-! ### Acts that keep ownership in order -/

/-- What an act may do without disturbing who owns what: it puts no token under an id that has an
owner, and gives no item to another owner than the one that its id has. -/
def Act.RespectsOwners (c : List Act) : Act → Prop
  | .token id _ => ∀ owner, ¬ Linked c owner id
  | .item added (some owner) => ∀ other, Linked c other added.id → other = owner
  | .item _ none | .removal _ => True

/-- A chronicle of acts none of which disturbed who owned what. -/
def RespectsOwners (c : List Act) : Prop :=
  ∀ early act late, c = early ++ act :: late → act.RespectsOwners early

theorem respectsOwners_nil : RespectsOwners [] := by
  intro early act late split
  simp at split

theorem respectsOwners_append_singleton :
    RespectsOwners (c ++ [act]) ↔ RespectsOwners c ∧ act.RespectsOwners c := by
  constructor
  · intro respects
    refine ⟨fun early next late split => ?_, respects c act [] rfl⟩
    exact respects early next (late ++ [act]) (by simp [split])
  · rintro ⟨respects, last⟩ early next late split
    rcases append_singleton_eq_append_cons.mp split with ⟨rfl, rfl, -⟩ | ⟨rest, -, before⟩
    · exact last
    · exact respects early next rest before

/-- Then nobody else is linked to what somebody is linked to. -/
theorem RespectsOwners.unique (respects : RespectsOwners c) (linked : Linked c owner owned)
    (also : Linked c other owned) : owner = other := by
  induction c using List.reverseRecOn with
  | nil => exact absurd linked not_linked_nil
  | append_singleton earlier act inductionHypothesis =>
    obtain ⟨respectsEarlier, last⟩ := respectsOwners_append_singleton.mp respects
    rcases linked_append_singleton.mp linked with ⟨item, rfl, rfl⟩ | ⟨old, -, -⟩
    · rcases linked_append_singleton.mp also with ⟨_, _, same⟩ | ⟨oldToo, -, -⟩
      · cases same
        rfl
      · exact (last other oldToo).symm
    · rcases linked_append_singleton.mp also with ⟨item, rfl, rfl⟩ | ⟨oldToo, -, -⟩
      · exact last owner old
      · exact inductionHypothesis respectsEarlier old oldToo

/-- Then an item was left under every id that has an owner. -/
theorem RespectsOwners.decides (respects : RespectsOwners c) (linked : Linked c owner owned) :
    ∃ item, Decides c owned (.item item) := by
  induction c using List.reverseRecOn with
  | nil => exact absurd linked not_linked_nil
  | append_singleton earlier act inductionHypothesis =>
    obtain ⟨respectsEarlier, last⟩ := respectsOwners_append_singleton.mp respects
    simp only [decides_append_singleton]
    by_cases about : act.subject = owned
    · simp only [if_pos about]
      cases act with
      | token id ref =>
        obtain rfl : id = owned := about
        rcases linked_append_singleton.mp linked with ⟨_, _, same⟩ | ⟨old, -, -⟩
        · cases same
        · exact absurd old (last owner)
      | item item named => exact ⟨item, rfl⟩
      | removal id =>
        exact absurd linked (not_linked_removal owner owned (.inr (Eq.symm about)))
    · simp only [if_neg about]
      rcases linked_append_singleton.mp linked with ⟨item, rfl, rfl⟩ | ⟨old, -, -⟩
      · exact absurd rfl about
      · exact inductionHypothesis respectsEarlier old

end Scene

namespace Board

variable {b : Board} {c : List Scene.Act}

/-- What was linked sooner stands first in the scene. -/
theorem Chronicled.ranksOwners (told : Chronicled c b) : b.scene.RanksOwners c := by
  induction told with
  | opened roster cell => exact .empty cell
  | newcomer told t ranks => exact ranks.keep fun _ => Scene.Act.noConfusion
  | token told ref listed ranks => exact ranks.keep fun _ => Scene.Act.noConfusion
  | item told item owner ranks => exact ranks.addItem told.follows.scene item owner
  | @move c b told id goal ranks =>
    rw [Board.move]
    split <;> exact ranks
  | removal told id ranks => exact ranks.remove told.follows.scene id

/-- Since tokens stand under their own ids, an owner's belongings are what it is linked to. -/
theorem Follows.belongings_eq (follows : b.Follows c) (owner : String) :
    b.belongings owner = b.scene.owned owner := by
  rw [belongings, List.map_id'']
  intro id
  split
  · next ref found => exact (follows.named id ref (follows.scene.tokenRef?_iff.mp found)).2
  · rfl

theorem Follows.mem_belongings (follows : b.Follows c) {owner owned : String} :
    owned ∈ b.belongings owner ↔ Scene.Linked c owner owned := by
  rw [follows.belongings_eq, Scene.mem_owned, follows.scene.links]

/-- A token stands under one id only. -/
theorem Follows.eq_of_tokenRef? (follows : b.Follows c) {id other : String} {ref : TokenRef}
    (found : b.scene.tokenRef? id = some ref) (also : b.scene.tokenRef? other = some ref) :
    id = other := by
  obtain ⟨-, named⟩ := follows.named id ref (follows.scene.tokenRef?_iff.mp found)
  obtain ⟨-, namedToo⟩ := follows.named other ref (follows.scene.tokenRef?_iff.mp also)
  exact named.symm.trans namedToo

/-- What somebody owns holds an item, unless a token was put in its place. -/
theorem Follows.holds_belonging (follows : b.Follows c) {owner owned : String}
    (owns : owned ∈ b.belongings owner) :
    (∃ item, Ordered.get? b.scene.nodes owned = some (.item item)) ∨
      ∃ ref, Scene.IsLast c owned (.token owned ref) := by
  have linked := (follows.scene.links owner owned).mpr (follows.mem_belongings.mp owns)
  obtain ⟨occupant, found, present⟩ := follows.scene.holds_of_mem_links linked
  cases occupant with
  | token ref => exact .inr ⟨ref, follows.scene.tokenRef?_iff.mp (Scene.tokenRef?_eq_some.mpr found)⟩
  | item item => exact .inl ⟨item, found⟩
  | nothing => exact absurd rfl present

section Lookups

variable {owner owned : String} {ref : TokenRef}

/-- Whoever is told to be the owner has what it owns among its belongings. -/
theorem Chronicled.mem_of_owner? (told : Chronicled c b)
    (isToken : b.scene.tokenRef? owner = some ref) (found : b.scene.owner? owned = some ref) :
    owned ∈ b.belongings owner := by
  have follows := told.follows
  obtain ⟨holder, first, named⟩ :=
    (Scene.owner?_iff follows.scene told.ranksOwners).mp found
  obtain rfl := follows.eq_of_tokenRef? named isToken
  exact follows.mem_belongings.mpr first.linked

/-- A token that has something among its belongings is told to be its owner, unless somebody else
was linked to it sooner. -/
theorem Chronicled.owner?_ne_iff (told : Chronicled c b)
    (isToken : b.scene.tokenRef? owner = some ref) (owns : owned ∈ b.belongings owner) :
    b.scene.owner? owned ≠ some ref ↔ ∃ other, Scene.Sooner c other owner owned := by
  have follows := told.follows
  have linked := follows.mem_belongings.mp owns
  constructor
  · intro differs
    rcases Scene.isFirstOwner_or_sooner follows.scene told.ranksOwners linked with first | sooner
    · have found := (Scene.owner?_iff follows.scene told.ranksOwners).mpr ⟨owner, first, isToken⟩
      exact absurd found differs
    · exact sooner
  · rintro ⟨other, sooner⟩ found
    obtain ⟨holder, first, named⟩ :=
      (Scene.owner?_iff follows.scene told.ranksOwners).mp found
    obtain rfl := follows.eq_of_tokenRef? named isToken
    exact sooner.asymm (first.sooner other sooner.linked sooner.ne)

end Lookups

/-- Where no act disturbs who owns what, only items are owned, each by one owner, and the two
lookups agree on every token. -/
theorem Chronicled.lookups_agree (told : Chronicled c b) (respects : Scene.RespectsOwners c)
    {owner : String} {ref : TokenRef} (isToken : b.scene.tokenRef? owner = some ref)
    (owned : String) :
    (owned ∈ b.belongings owner →
      (∃ item, Ordered.get? b.scene.nodes owned = some (.item item)) ∧
        ∀ other, owned ∈ b.belongings other → other = owner) ∧
    (owned ∈ b.belongings owner ↔ b.scene.owner? owned = some ref) := by
  have follows := told.follows
  refine ⟨fun owns => ?_, fun owns => ?_, told.mem_of_owner? isToken⟩
  · have linked := follows.mem_belongings.mp owns
    obtain ⟨item, decides⟩ := respects.decides linked
    refine ⟨⟨item, (follows.scene.holds owned _ Occupant.noConfusion).mpr decides⟩, ?_⟩
    exact fun other also => respects.unique (follows.mem_belongings.mp also) linked
  · by_contra differs
    obtain ⟨other, sooner⟩ := (told.owner?_ne_iff isToken owns).mp differs
    exact sooner.ne (respects.unique sooner.linked (follows.mem_belongings.mp owns))

/-- What the two lookups of a scene tell of the acts behind it. What an id owns are the ids that it
was linked to since neither was taken out, once each. The owner of an id is the one that was linked
to it sooner than every other, if that is a token. So whoever is told to be an owner has what it
owns among its belongings, but a token that has something among its belongings is not told to be
its owner exactly if somebody else was linked sooner; and what is owned holds an item unless the
last act about it put a token in its place.

Where no token is put under an id that has an owner, and no item is given to another owner than the
one that its id has, only items are owned, each by one owner, and the lookups agree. -/
theorem lookups_tell_owners (told : Chronicled c b) :
    (∀ owner owned, owned ∈ b.belongings owner ↔ Scene.Linked c owner owned) ∧
    (∀ owner, (b.belongings owner).Nodup) ∧
    (∀ owned ref, b.scene.owner? owned = some ref ↔
      ∃ owner, Scene.IsFirstOwner c owner owned ∧ b.scene.tokenRef? owner = some ref) ∧
    (∀ owner ref, b.scene.tokenRef? owner = some ref → ∀ owned,
      (b.scene.owner? owned = some ref → owned ∈ b.belongings owner) ∧
      (owned ∈ b.belongings owner →
        (b.scene.owner? owned ≠ some ref ↔ ∃ other, Scene.Sooner c other owner owned))) ∧
    (∀ owner owned, owned ∈ b.belongings owner →
      (∃ item, Ordered.get? b.scene.nodes owned = some (.item item)) ∨
        ∃ ref, Scene.IsLast c owned (.token owned ref)) ∧
    (Scene.RespectsOwners c → ∀ owner ref, b.scene.tokenRef? owner = some ref → ∀ owned,
      (owned ∈ b.belongings owner →
        (∃ item, Ordered.get? b.scene.nodes owned = some (.item item)) ∧
          ∀ other, owned ∈ b.belongings other → other = owner) ∧
      (owned ∈ b.belongings owner ↔ b.scene.owner? owned = some ref)) := by
  have follows := told.follows
  have ranks := told.ranksOwners
  refine ⟨fun _ _ => follows.mem_belongings, fun owner => ?_,
    fun _ _ => Scene.owner?_iff follows.scene ranks, fun owner ref isToken owned => ?_,
    fun _ _ => follows.holds_belonging, fun respects owner ref isToken owned => ?_⟩
  · rw [follows.belongings_eq]
    exact Scene.nodup_owned ranks.nodup owner
  · exact ⟨told.mem_of_owner? isToken, told.owner?_ne_iff isToken⟩
  · exact told.lookups_agree respects isToken owned

/-- A hero enters and is given a spear. -/
theorem lookups_tell_owners_spear :
    ∃ b : Board, ∃ c, Chronicled c b ∧ Scene.RespectsOwners c ∧
      b.scene.tokenRef? "hero" = some 0 ∧ "spear" ∈ b.belongings "hero" ∧
      b.scene.owner? "spear" = some 0 := by
  have told := ((Chronicled.opened [] 5).newcomer { id := "hero", name := "Hero" }).item
    { id := "spear", name := "Spear" } (some "hero")
  have bare : ∀ owner owned, ¬ Scene.Linked ([] ++ [.token "hero" 0]) owner owned := by
    intro owner owned linked
    rcases Scene.linked_append_singleton.mp linked with ⟨_, _, same⟩ | ⟨old, _⟩
    · cases same
    · exact Scene.not_linked_nil old
  have respects : Scene.RespectsOwners ([] ++ [.token "hero" 0] ++
      [.item { id := "spear", name := "Spear" } (some "hero")]) :=
    Scene.respectsOwners_append_singleton.mpr ⟨Scene.respectsOwners_append_singleton.mpr
      ⟨Scene.respectsOwners_nil, fun _ linked => Scene.not_linked_nil linked⟩,
      fun other linked => absurd linked (bare other _)⟩
  obtain ⟨-, -, -, -, -, agree⟩ := lookups_tell_owners told
  have owner := agree respects "hero" 0 (by decide) "spear"
  exact ⟨_, _, told, respects, by decide, by decide, owner.2.mp (by decide)⟩

/-- A sword is given to the hero and then to the rogue, and a token takes the place of the hero's
spear. The sword is owned by both, and told to be the hero's; and the hero owns a token. -/
theorem sword_has_two_owners :
    ∃ b : Board, ∃ c, Chronicled c b ∧ b.scene.tokenRef? "hero" = some 0 ∧
      b.scene.tokenRef? "rogue" = some 1 ∧ "sword" ∈ b.belongings "hero" ∧
      ¬ ("sword" ∈ b.belongings "rogue" ↔ b.scene.owner? "sword" = some 1) ∧
      "spear" ∈ b.belongings "hero" ∧
      ¬ ∃ item, Ordered.get? b.scene.nodes "spear" = some (.item item) := by
  have told := ((((((Chronicled.opened [] 5).newcomer { id := "hero", name := "Hero" }).newcomer
    { id := "rogue", name := "Rogue" }).item { id := "sword", name := "Sword" } (some "hero")).item
    { id := "sword", name := "Sword" } (some "rogue")).item { id := "spear", name := "Spear" }
    (some "hero")).newcomer { id := "spear", name := "Stick" }
  refine ⟨_, _, told, by decide, by decide, by decide, by decide, by decide, ?_⟩
  rintro ⟨item, found⟩
  cases found

end Board
end TurnScript
