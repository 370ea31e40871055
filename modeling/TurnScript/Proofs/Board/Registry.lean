import TurnScript.Proofs.Board.Chronicle
import TurnScript.Proofs.Play.Aftermath

/-!
# The scene as a registry

Whatever is added to a scene, moved in it and taken out of it, the scene tells what its chronicle
tells. An id is what the last act about it left there, tokens and nodes stand in the order in which
their ids entered, and there is a link where an owner was named since neither id was taken out. So
nobody is linked to a node that is missing or empty, and reading the scene cannot fail.
-/

namespace TurnScript

namespace Scene

variable {s : Scene} {c : List Act} {id other : String}

/-! ### Nodes and links under one operation -/

theorem has_iff : s.has id = true ↔ id ∈ Ordered.keys s.nodes :=
  Ordered.mem_keys.symm

@[simp] theorem links_ensure : (s.ensure id).links = s.links := by
  unfold ensure
  split <;> rfl

theorem keys_ensure : Ordered.keys (s.ensure id).nodes =
    if id ∈ Ordered.keys s.nodes then Ordered.keys s.nodes else Ordered.keys s.nodes ++ [id] := by
  unfold ensure
  simp only [has_iff]
  split
  · rfl
  · simp [Ordered.keys]

/-- A node that is made for an owner holds nothing. -/
theorem get?_ensure {occupant : Occupant} (holds : occupant ≠ .nothing) :
    Ordered.get? (s.ensure id).nodes other = some occupant ↔
      Ordered.get? s.nodes other = some occupant := by
  unfold ensure
  split
  · rfl
  · next missing =>
    rw [Ordered.get?_append_singleton]
    cases stood : Ordered.get? s.nodes other with
    | some _ => rw [Option.some_or]
    | none =>
      rw [Option.none_or]
      split <;> simp [holds.symm]

@[simp] theorem nodes_link (owner owned : String) :
    (s.link owner owned).nodes = (s.ensure owner).nodes := by
  unfold link
  dsimp only
  split <;> rfl

theorem mem_links_link {owner owned : String} {pair : String × String} :
    pair ∈ (s.link owner owned).links ↔ pair = (owner, owned) ∨ pair ∈ s.links := by
  unfold link
  simp only [links_ensure, List.contains_iff_mem]
  split
  · next known =>
    rw [links_ensure]
    constructor
    · exact .inr
    · rintro (rfl | old)
      · exact known
      · exact old
  · rw [List.mem_append, List.mem_singleton, or_comm]

theorem nodes_remove : (s.remove id).2.nodes = Ordered.erase s.nodes id := by
  unfold remove
  split
  · rfl
  · next missing =>
    symm
    refine List.filter_eq_self.mpr fun entry member => bne_iff_ne.mpr ?_
    rintro rfl
    exact missing (has_iff.mpr (List.mem_map_of_mem member))

/-! ### A scene and its chronicle -/

/-- A scene that tells what its chronicle tells. -/
structure Follows (s : Scene) (c : List Act) : Prop where
  lists : Lists (touches c) (Ordered.keys s.nodes)
  holds : ∀ id occupant, occupant ≠ .nothing →
    (Ordered.get? s.nodes id = some occupant ↔ Decides c id occupant)
  links : ∀ owner owned, (owner, owned) ∈ s.links ↔ Linked c owner owned

namespace Follows

theorem empty (cell : Int) : ({ cell } : Scene).Follows [] where
  lists := Lists.nil
  holds _ _ _ := iff_of_false (by simp [Ordered.get?]) not_decides_nil
  links _ _ := iff_of_false List.not_mem_nil not_linked_nil

/-- What is put under an id is there from then on. -/
theorem put (follows : s.Follows c) (act : Act) (comes : act.touches = [.comes act.subject]) :
    ({ s with nodes := Ordered.put s.nodes act.subject act.puts } : Scene).Follows
      (c ++ [act]) where
  lists := by
    rw [touches_append_singleton, comes, Ordered.keys_put]
    exact follows.lists.comes act.subject
  holds id occupant present := by
    rw [decides_append_singleton, Ordered.get?_put]
    by_cases about : act.subject = id
    · rw [if_pos about, if_pos about.symm, Option.some.injEq]
    · rw [if_neg about, if_neg (Ne.symm about)]
      exact follows.holds id occupant present
  links owner owned := by
    rw [linked_append_singleton]
    have adds : ∀ id, act ≠ .removal id := by
      rintro id rfl
      cases comes
    have unowned : ∀ item : Item, .item item (some owner) ≠ act := by
      rintro item rfl
      cases comes
    simp [follows.links, adds, unowned]

theorem addToken (follows : s.Follows c) (id : String) (ref : TokenRef) :
    (s.addToken id ref).Follows (c ++ [.token id ref]) :=
  follows.put (.token id ref) rfl

/-- An owner comes after the item and is linked to it. -/
theorem link {item : Item} (follows : s.Follows (c ++ [.item item none])) (owner : String) :
    (s.link owner item.id).Follows (c ++ [.item item (some owner)]) where
  lists := by
    have later : touches (c ++ [.item item (some owner)]) =
        touches (c ++ [.item item none]) ++ [.comes owner] := by
      simp [Act.touches]
    -- An owner who is new gets a node behind that of the item; one who stands keeps its place.
    rw [later, nodes_link, keys_ensure]
    exact follows.lists.comes owner
  holds id occupant present := by
    rw [nodes_link, get?_ensure present, follows.holds id occupant present,
      decides_append_singleton, decides_append_singleton]
    rfl
  links other owned := by
    rw [mem_links_link, follows.links, linked_append_singleton, linked_append_singleton]
    simp [eq_comm, and_comm]

theorem addItem (follows : s.Follows c) (item : Item) (owner : Option String) :
    (s.addItem item owner).Follows (c ++ [.item item owner]) := by
  have unowned := follows.put (.item item none) rfl
  cases owner with
  | none => exact unowned
  | some owner => exact unowned.link owner

/-- Nobody is linked who is not in the scene. -/
theorem has_of_mem_links (follows : s.Follows c) {owner owned : String}
    (linked : (owner, owned) ∈ s.links) : s.has owner = true ∧ s.has owned = true := by
  rw [has_iff, has_iff, follows.lists.mem_iff, follows.lists.mem_iff]
  exact ((follows.links owner owned).mp linked).stands

theorem links_remove (follows : s.Follows c) (id : String) :
    (s.remove id).2.links = s.links.filter fun (owner, owned) => owner != id && owned != id := by
  unfold Scene.remove
  split
  · rfl
  · next missing =>
    symm
    refine List.filter_eq_self.mpr ?_
    rintro ⟨owner, owned⟩ linked
    obtain ⟨ownerStands, ownedStands⟩ := follows.has_of_mem_links linked
    rw [Bool.and_eq_true, bne_iff_ne, bne_iff_ne]
    constructor <;> rintro rfl
    · exact missing ownerStands
    · exact missing ownedStands

/-- What is taken out is gone, with its links. -/
theorem remove (follows : s.Follows c) (id : String) :
    (s.remove id).2.Follows (c ++ [.removal id]) where
  lists := by
    rw [touches_append_singleton, nodes_remove, Ordered.keys_erase]
    exact follows.lists.goes id
  holds other occupant present := by
    rw [nodes_remove, Ordered.get?_erase, decides_append_singleton]
    by_cases about : id = other
    · rw [if_pos about.symm, if_pos (show (Act.removal id).subject = other from about)]
      exact iff_of_false (Option.some_ne_none occupant).symm (Ne.symm present)
    · rw [if_neg (Ne.symm about), if_neg (show (Act.removal id).subject ≠ other from about)]
      exact follows.holds other occupant present
  links owner owned := by
    rw [follows.links_remove, linked_append_singleton, List.mem_filter, follows.links]
    simp [@eq_comm _ id]

/-- What an owner is linked to holds something. -/
theorem holds_of_mem_links (follows : s.Follows c) {owner owned : String}
    (linked : (owner, owned) ∈ s.links) :
    ∃ occupant, Ordered.get? s.nodes owned = some occupant ∧ occupant ≠ .nothing := by
  obtain ⟨occupant, decides, present⟩ := ((follows.links owner owned).mp linked).decides
  exact ⟨occupant, (follows.holds owned occupant present).mpr decides, present⟩

end Follows

/-! ### Reading a scene -/

theorem tokenIds_sublist (s : Scene) : s.tokenIds.Sublist (Ordered.keys s.nodes) := by
  unfold tokenIds Ordered.keys
  induction s.nodes with
  | nil => exact List.Sublist.slnil
  | cons node rest inductionHypothesis =>
    obtain ⟨id, occupant⟩ := node
    cases occupant with
    | token ref => exact inductionHypothesis.cons_cons id
    | item | nothing => exact inductionHypothesis.cons id

theorem mem_tokenIds : id ∈ s.tokenIds ↔ ∃ ref, (id, .token ref) ∈ s.nodes := by
  unfold tokenIds
  rw [List.mem_filterMap]
  constructor
  · rintro ⟨⟨other, occupant⟩, member, same⟩
    cases occupant with
    | token ref =>
      cases same
      exact ⟨ref, member⟩
    | item | nothing => cases same
  · rintro ⟨ref, member⟩
    exact ⟨_, member, rfl⟩

theorem exists_of_mem_itemIds (listed : id ∈ s.itemIds) : ∃ item, (id, .item item) ∈ s.nodes := by
  unfold itemIds at listed
  obtain ⟨⟨other, occupant⟩, member, same⟩ := List.mem_filterMap.mp listed
  cases occupant with
  | item item =>
    cases same
    exact ⟨item, member⟩
  | token | nothing => cases same

/-- What stands under an id, if there is a node and it holds something. -/
def content? (s : Scene) (id : String) : Option Occupant :=
  (Ordered.get? s.nodes id).filter (· ≠ .nothing)

/-- A scene in which nobody owns an id, and it owns nothing. -/
structure Forgets (s : Scene) (id : String) : Prop where
  unlinked : ∀ owner owned, (owner, owned) ∈ s.links → owner ≠ id ∧ owned ≠ id
  unowned : s.owner? id = none
  poor : s.owned id = []

theorem forgets_of_unlinked
    (unlinked : ∀ owner owned, (owner, owned) ∈ s.links → owner ≠ id ∧ owned ≠ id) :
    s.Forgets id where
  unlinked := unlinked
  unowned := by
    have nobody : s.links.find? (·.2 == id) = none := by
      rw [List.find?_eq_none]
      rintro ⟨owner, owned⟩ linked
      simpa using (unlinked owner owned linked).2
    rw [owner?, nobody]
  poor := by
    unfold owned
    rw [List.filterMap_eq_nil_iff]
    rintro ⟨owner, owned⟩ linked
    simpa using (unlinked owner owned linked).1

namespace Follows

/-- Each node can be looked up under its id. -/
theorem get?_iff_mem (follows : s.Follows c) {occupant : Occupant} :
    Ordered.get? s.nodes id = some occupant ↔ (id, occupant) ∈ s.nodes :=
  ⟨Ordered.mem_of_get?, Ordered.get?_of_mem follows.lists.nodup⟩

/-- An id is a token if adding that token was the last act about it. -/
theorem tokenRef?_iff (follows : s.Follows c) {ref : TokenRef} :
    s.tokenRef? id = some ref ↔ IsLast c id (.token id ref) := by
  rw [tokenRef?_eq_some, follows.holds id _ Occupant.noConfusion, decides_token]

/-- An id is an item if it is not empty and adding that item was the last act about it. -/
theorem item?_iff (follows : s.Follows c) {item : Item} :
    s.item? id = some item ↔ id ≠ "" ∧ ∃ owner, IsLast c id (.item item owner) := by
  rw [item?_eq_some, follows.holds id _ Occupant.noConfusion, decides_item]

theorem mem_tokenIds_iff (follows : s.Follows c) :
    id ∈ s.tokenIds ↔ ∃ ref, s.tokenRef? id = some ref := by
  simp only [mem_tokenIds, tokenRef?_eq_some, follows.get?_iff_mem]

/-- A token is no item. -/
theorem not_mem_itemIds (follows : s.Follows c) (isToken : id ∈ s.tokenIds) :
    id ∉ s.itemIds ∧ s.item? id = none := by
  obtain ⟨ref, token⟩ := mem_tokenIds.mp isToken
  have other : ∀ item, Ordered.get? s.nodes id ≠ some (.item item) := by
    intro item found
    rw [follows.get?_iff_mem.mpr token] at found
    cases found
  constructor
  · intro isItem
    obtain ⟨item, listed⟩ := exists_of_mem_itemIds isItem
    exact other item (follows.get?_iff_mem.mpr listed)
  · rw [Option.eq_none_iff_forall_ne_some]
    intro item found
    exact other item (item?_eq_some.mp found).2

/-- The row of tokens is looked up id by id. -/
theorem mapM_tokenRef? (follows : s.Follows c) : s.tokenIds.mapM s.tokenRef? = some s.tokens := by
  have found : ∀ id ref, (id, .token ref) ∈ s.nodes → s.tokenRef? id = some ref :=
    fun id ref member => tokenRef?_eq_some.mpr (follows.get?_iff_mem.mpr member)
  unfold tokenIds tokens
  generalize s.nodes = nodes at found ⊢
  induction nodes with
  | nil => rfl
  | cons node rest inductionHypothesis =>
    obtain ⟨id, occupant⟩ := node
    have others := inductionHypothesis fun id ref member =>
      found id ref (List.mem_cons_of_mem _ member)
    cases occupant with
    | token ref =>
      have first := found id ref List.mem_cons_self
      simp [first, others]
    | item | nothing => simpa using others

/-- An id that has been taken out has no links, and putting it back brings none back. -/
theorem forgets_remove (follows : s.Follows c) (id : String) :
    (s.remove id).2.Forgets id ∧ (∀ ref, ((s.remove id).2.addToken id ref).Forgets id) ∧
      ∀ item : Item, item.id = id → ((s.remove id).2.addItem item none).Forgets id := by
  have unlinked : ∀ owner owned, (owner, owned) ∈ (s.remove id).2.links →
      owner ≠ id ∧ owned ≠ id := by
    intro owner owned linked
    have told := ((follows.remove id).links owner owned).mp linked
    constructor <;> rintro rfl
    · exact not_linked_removal _ _ (.inl rfl) told
    · exact not_linked_removal _ _ (.inr rfl) told
  exact ⟨forgets_of_unlinked unlinked, fun _ => forgets_of_unlinked unlinked,
    fun _ _ => forgets_of_unlinked unlinked⟩

/-- What an owner is linked to can be read. -/
theorem mapM_content? (follows : s.Follows c) (id : String) :
    ∃ contents, (s.owned id).mapM s.content? = some contents := by
  have holds : ∀ owned ∈ s.owned id, ∃ occupant, s.content? owned = some occupant := by
    intro owned member
    obtain ⟨⟨owner, other⟩, linked, same⟩ := List.mem_filterMap.mp member
    have here : owner = id ∧ other = owned := by simpa using same
    obtain ⟨rfl, rfl⟩ := here
    obtain ⟨occupant, found, present⟩ := follows.holds_of_mem_links linked
    exact ⟨occupant, by simp [content?, found, present]⟩
  generalize s.owned id = row at holds ⊢
  induction row with
  | nil => exact ⟨[], rfl⟩
  | cons first rest inductionHypothesis =>
    obtain ⟨occupant, read⟩ := holds first List.mem_cons_self
    obtain ⟨contents, others⟩ := inductionHypothesis fun owned member =>
      holds owned (List.mem_cons_of_mem _ member)
    exact ⟨occupant :: contents, by simp [read, others]⟩

end Follows

end Scene

namespace Board

variable {b : Board} {c : List Scene.Act}

/-- Put a token of the roster under its own id. -/
def enter (b : Board) (ref : TokenRef) : Board :=
  { b with scene := b.scene.addToken (b.token ref).id ref }

/-- A board and what was done to its scene. It begins empty; tokens that are new or that were
there before are put in it, items with an owner or without, tokens are moved and ids are taken
out. -/
inductive Chronicled : List Scene.Act → Board → Prop where
  | opened (roster : List Token) (cell : Int) : Chronicled [] { roster, scene := { cell } }
  | newcomer {c : List Scene.Act} {b : Board} (told : Chronicled c b) (t : Token) :
    Chronicled (c ++ [.token t.id b.roster.length]) (b.addToken t)
  | token {c : List Scene.Act} {b : Board} (told : Chronicled c b) (ref : TokenRef)
    (listed : ref < b.roster.length) : Chronicled (c ++ [.token (b.token ref).id ref]) (b.enter ref)
  | item {c : List Scene.Act} {b : Board} (told : Chronicled c b) (item : Item)
    (owner : Option String) : Chronicled (c ++ [.item item owner]) (b.addItem item owner)
  | move {c : List Scene.Act} {b : Board} (told : Chronicled c b) (id : String)
    (goal : Position) : Chronicled c (b.move id goal).2
  | removal {c : List Scene.Act} {b : Board} (told : Chronicled c b) (id : String) :
    Chronicled (c ++ [.removal id]) (b.remove id).2

/-- A board whose scene tells what its chronicle tells, and files tokens under their own ids. -/
structure Follows (b : Board) (c : List Scene.Act) : Prop where
  scene : b.scene.Follows c
  named : ∀ id ref, Scene.IsLast c id (.token id ref) →
    ref < b.roster.length ∧ (b.token ref).id = id

/-- Whoever was just enlisted is found in the roster. -/
theorem token_enlist_self (b : Board) (t : Token) : (b.enlist t).2.token b.roster.length = t := by
  simp [enlist, token, List.getD]

/-- Whoever was in the roster stays there. -/
theorem token_enlist (b : Board) (t : Token) {ref : TokenRef} (listed : ref < b.roster.length) :
    (b.enlist t).2.token ref = b.token ref := by
  simp [enlist, token, List.getD, List.getElem?_append_left listed]

/-- A new token is put in by enlisting it and then putting it in. -/
theorem addToken_eq (b : Board) (t : Token) :
    b.addToken t = (b.enlist t).2.enter b.roster.length := by
  rw [enter, token_enlist_self]
  rfl

namespace Follows

theorem act {act : Scene.Act} {scene : Scene} (follows : b.Follows c)
    (told : scene.Follows (c ++ [act]))
    (listed : ∀ id ref, act = .token id ref → ref < b.roster.length ∧ (b.token ref).id = id) :
    ({ b with scene } : Board).Follows (c ++ [act]) where
  scene := told
  named id ref isLast := by
    rw [Scene.isLast_append_singleton] at isLast
    split at isLast
    · exact listed id ref isLast.symm
    · exact follows.named id ref isLast

theorem enter (follows : b.Follows c) {ref : TokenRef} (listed : ref < b.roster.length) :
    (b.enter ref).Follows (c ++ [.token (b.token ref).id ref]) := by
  refine follows.act (follows.scene.addToken _ ref) fun id other same => ?_
  cases same
  exact ⟨listed, rfl⟩

theorem addItem (follows : b.Follows c) (item : Item) (owner : Option String) :
    (b.addItem item owner).Follows (c ++ [.item item owner]) :=
  follows.act (follows.scene.addItem item owner) fun _ _ => Scene.Act.noConfusion

theorem remove (follows : b.Follows c) (id : String) :
    (b.remove id).2.Follows (c ++ [.removal id]) :=
  follows.act (follows.scene.remove id) fun _ _ => Scene.Act.noConfusion

theorem enlist (follows : b.Follows c) (t : Token) : (b.enlist t).2.Follows c where
  scene := follows.scene
  named id ref isLast := by
    obtain ⟨listed, named⟩ := follows.named id ref isLast
    have longer : (b.enlist t).2.roster.length = b.roster.length + 1 := List.length_append
    rw [token_enlist b t listed, longer]
    exact ⟨Nat.lt_succ_of_lt listed, named⟩

/-- Moving a token changes no id. -/
theorem move (follows : b.Follows c) (id : String) (goal : Position) :
    (b.move id goal).2.Follows c := by
  unfold Board.move
  split
  · exact follows
  · next ref found =>
    refine ⟨follows.scene, fun other last isLast => ?_⟩
    obtain ⟨listed, named⟩ := follows.named other last isLast
    refine ⟨by simpa [Board.change] using listed, ?_⟩
    rw [token_change]
    split <;> exact named

end Follows

/-- What was done to a scene can be read from it. -/
theorem Chronicled.follows (told : Chronicled c b) : b.Follows c := by
  induction told with
  | opened roster cell =>
    exact ⟨Scene.Follows.empty cell, fun id ref isLast => absurd isLast Scene.not_isLast_nil⟩
  | @newcomer c b told t follows =>
    have listed : b.roster.length < (b.enlist t).2.roster.length := by simp [enlist]
    have entered := (follows.enlist t).enter listed
    rwa [token_enlist_self, ← addToken_eq] at entered
  | token told ref listed follows => exact follows.enter listed
  | item told item owner follows => exact follows.addItem item owner
  | move told id goal follows => exact follows.move id goal
  | removal told id follows => exact follows.remove id

/-- A board that answers for its chronicle. -/
structure IsFaithful (b : Board) (c : List Scene.Act) : Prop where
  /-- No id is a token and an item. -/
  exclusive : ∀ id ∈ b.scene.tokenIds, id ∉ b.scene.itemIds ∧ b.scene.item? id = none
  /-- An id is a token if adding that token was the last act about it. -/
  token_iff : ∀ id ref, b.scene.tokenRef? id = some ref ↔ Scene.IsLast c id (.token id ref)
  /-- An id that is not empty is an item if adding that item was the last act about it. -/
  item_iff : ∀ id item, b.scene.item? id = some item ↔
    id ≠ "" ∧ ∃ owner, Scene.IsLast c id (.item item owner)
  /-- Tokens and items go by the ids under which they stand. -/
  token_named : ∀ id ref, b.scene.tokenRef? id = some ref →
    ref < b.roster.length ∧ (b.token ref).id = id
  item_named : ∀ id item, b.scene.item? id = some item → item.id = id
  /-- The row of tokens holds whoever is a token, once each, in the order of entering. -/
  mem_tokenIds : ∀ id, id ∈ b.scene.tokenIds ↔ ∃ ref, b.scene.tokenRef? id = some ref
  nodup : b.scene.tokenIds.Nodup
  ordered : b.scene.tokenIds.Pairwise (Scene.Before (Scene.touches c))
  /-- Ids are linked if they were linked and neither has been taken out since. -/
  linked_iff : ∀ owner owned, (owner, owned) ∈ b.scene.links ↔ Scene.Linked c owner owned
  /-- Taking an id out takes its links away for good. -/
  forgets : ∀ id, (b.scene.remove id).2.Forgets id ∧
    (∀ ref, ((b.scene.remove id).2.addToken id ref).Forgets id) ∧
    ∀ item : Item, item.id = id → ((b.scene.remove id).2.addItem item none).Forgets id
  /-- Each token of the row can be read, and so can each hostile. -/
  tokens_read : b.scene.tokenIds.mapM b.scene.tokenRef? = some b.scene.tokens
  hostiles_read : ∀ subject reveal, ∀ other ∈ b.hostilesOf subject reveal,
    other < b.roster.length ∧ b.scene.tokenRef? (b.token other).id = some other
  /-- Each link is one of two nodes, and what is owned can be read. -/
  owners_stand : ∀ owner owned, (owner, owned) ∈ b.scene.links → b.scene.has owner = true
  owned_read : ∀ id, ∃ contents, (b.scene.owned id).mapM b.scene.content? = some contents
  belongings_read : ∀ id, b.belongings id = b.scene.owned id

/-- A scene is a faithful registry of whatever was done to it. -/
theorem registry_is_faithful (told : Chronicled c b) : b.IsFaithful c := by
  obtain ⟨follows, named⟩ := told.follows
  have token_named : ∀ id ref, b.scene.tokenRef? id = some ref →
      ref < b.roster.length ∧ (b.token ref).id = id :=
    fun id ref found => named id ref (follows.tokenRef?_iff.mp found)
  refine
    { exclusive := fun _ => follows.not_mem_itemIds
      token_iff := fun _ _ => follows.tokenRef?_iff
      item_iff := fun _ _ => follows.item?_iff
      token_named
      item_named := ?_
      mem_tokenIds := fun _ => follows.mem_tokenIds_iff
      nodup := b.scene.tokenIds_sublist.nodup follows.lists.nodup
      ordered := follows.lists.ordered.sublist b.scene.tokenIds_sublist
      linked_iff := follows.links
      forgets := follows.forgets_remove
      tokens_read := follows.mapM_tokenRef?
      hostiles_read := ?_
      owners_stand := fun owner owned linked => (follows.has_of_mem_links linked).1
      owned_read := follows.mapM_content?
      belongings_read := ?_ }
  · intro id item found
    obtain ⟨-, owner, isLast⟩ := follows.item?_iff.mp found
    exact isLast.1
  · intro subject reveal other hostile
    obtain ⟨id, member⟩ := Scene.mem_tokens.mp (mem_hostilesOf.mp hostile).1
    have found := Scene.tokenRef?_eq_some.mpr (follows.get?_iff_mem.mpr member)
    obtain ⟨listed, rfl⟩ := token_named id other found
    exact ⟨listed, found⟩
  · intro id
    unfold belongings
    apply List.map_id''
    intro owned
    split
    · next ref found => exact (token_named owned ref found).2
    · rfl

/-- A spear belongs to a hero who is not there yet, a wolf is taken out and put back, and a token
takes the id of the spear. -/
theorem registry_is_faithful_camp :
    ∃ b : Board, ∃ c, Chronicled c b ∧ b.IsFaithful c ∧
      b.scene.tokenIds = ["spear", "hero", "wolf"] ∧ b.belongings "hero" = ["spear"] := by
  have camp := (((Chronicled.opened [{ id := "wolf", name := "Wolf" }] 5).item
    { id := "spear", name := "Spear" } (some "hero")).token 0 (by decide)).newcomer
    { id := "hero", name := "Hero" }
  have back := (((camp.removal "wolf").token 0 (by decide)).newcomer
    { id := "spear", name := "Stick" }).move "hero" ⟨2, 2⟩
  exact ⟨_, _, back, registry_is_faithful back, by decide, by decide⟩

end Board

end TurnScript
