import TurnScript.Proofs.Play.Spending
import TurnScript.Session.Nobody

/-!
# Bounds of what is spent and of hit points

A use takes one off each entry that it costs, without looking. It never goes below zero, nor does it
miss an entry, because an item is found unusable first where an entry is missing or has nothing
left. Damage and healing come from formulas that may give any number; they are cut off at zero, and
healing at the maximum. So limited uses, slots, pools and hit points stay in bounds whatever is
attempted, also where a mishap cuts a use short.
-/

namespace TurnScript

namespace Ordered

variable {κ α : Type} [BEq κ] [LawfulBEq κ] [DecidableEq κ]

/-- One taken off an entry that has something left leaves no entry below zero. -/
theorem nonneg_of_take_one {entries : List (κ × Int)} {key : κ} {least : Int}
    (nonneg : ∀ other left, get? entries other = some left → 0 ≤ left)
    (listed : get? entries key = some least) (positive : 0 < least) (other : κ) (left : Int)
    (found : get? (adjust entries key (· - 1)) other = some left) : 0 ≤ left := by
  rw [get?_adjust] at found
  split at found
  · next same =>
    rw [same, listed, Option.map_some, Option.some.injEq] at found
    omega
  · exact nonneg other left found

omit [LawfulBEq κ] [DecidableEq κ] in
theorem exists_of_getD_pos {entries : List (κ × Int)} {key : κ}
    (positive : ¬ (get? entries key).getD 0 ≤ 0) :
    ∃ left, get? entries key = some left ∧ 0 < left := by
  cases found : get? entries key with
  | none => simp [found] at positive
  | some left => exact ⟨left, rfl, by simpa [found] using positive⟩

end Ordered

/-- A token whose slots, pools and hit points are in bounds. -/
structure Token.InBounds (t : Token) : Prop where
  slots : ∀ level left, Ordered.get? t.spellSlots level = some left → 0 ≤ left
  pools : ∀ name left, Ordered.get? t.resources name = some left → 0 ≤ left
  hp_nonneg : 0 ≤ t.hp
  hp_le : t.hp ≤ t.maxHp

/-- A token that has an entry with something left for everything that a use of an item costs. -/
structure Token.Affords (user : Token) (item : Item) : Prop where
  use : ∀ left, item.uses = some left → 0 < left
  slot : 0 < item.level → ∃ left, Ordered.get? user.spellSlots item.level = some left ∧ 0 < left
  point : ∀ pool, nonempty item.consumeTarget = some pool →
    ∃ left, Ordered.get? user.resources pool = some left ∧ 0 < left

/-- An item that is not used up has uses left, if they are limited. -/
theorem Item.uses_pos {item : Item} (unspent : item.isUsedUp ≠ true) (left : Int)
    (limited : item.uses = some left) : 0 < left := by
  simpa [isUsedUp, limited] using unspent

/-- Without a reason against it, a token can pay for an item. -/
theorem Token.affords_of_usable {item : Item} {user : Token}
    (usable : item.unusableReason? user = none) : user.Affords item := by
  unfold Item.unusableReason? at usable
  split at usable
  · cases usable
  next unspent =>
  split at usable
  · cases usable
  next castable =>
  refine ⟨item.uses_pos unspent, fun leveled => ?_, fun pool named => ?_⟩
  · exact Ordered.exists_of_getD_pos fun spent => castable ⟨leveled, spent⟩
  · rw [named] at usable
    dsimp only at usable
    split at usable
    · cases usable
    · next pooled => exact Ordered.exists_of_getD_pos pooled

/-- What nobody can use costs nothing of a token. -/
theorem Token.affords_of_usableByNobody {item : Item} (usable : item.unusableByNobody? = none)
    (user : Token) : user.Affords item := by
  unfold Item.unusableByNobody? at usable
  split at usable
  · cases usable
  next unspent =>
  split at usable
  · cases usable
  next unleveled =>
  split at usable
  · cases usable
  next unpooled =>
  exact ⟨item.uses_pos unspent, fun leveled => absurd leveled unleveled,
    fun pool named => absurd (by simp [named]) unpooled⟩

namespace Token.InBounds

variable {t : Token}

/-- A token stays in bounds that pays for what it can afford. -/
theorem spend (inBounds : t.InBounds) {item : Item} (affords : t.Affords item) :
    (t.spend item).InBounds := by
  have cast : (if 0 < item.level then
      { t with spellSlots := Ordered.adjust t.spellSlots item.level (· - 1) } else t).InBounds := by
    split
    · next leveled =>
      obtain ⟨left, listed, positive⟩ := affords.slot leveled
      exact ⟨Ordered.nonneg_of_take_one inBounds.slots listed positive, inBounds.pools,
        inBounds.hp_nonneg, inBounds.hp_le⟩
    · exact inBounds
  cases named : nonempty item.consumeTarget with
  | none => simpa only [Token.spend, named] using cast
  | some pool =>
    obtain ⟨left, listed, positive⟩ := affords.point pool named
    have kept : Ordered.get? (if 0 < item.level then
        { t with spellSlots := Ordered.adjust t.spellSlots item.level (· - 1) } else t).resources
        pool = some left := by
      split <;> exact listed
    simp only [Token.spend, named]
    exact ⟨cast.slots, Ordered.nonneg_of_take_one cast.pools kept positive, cast.hp_nonneg,
      cast.hp_le⟩

/-- Hit points that are taken off stop at zero. -/
theorem hurt (inBounds : t.InBounds) {damage : Int} (nonneg : 0 ≤ damage) :
    ({ t with hp := max 0 (t.hp - damage) } : Token).InBounds := by
  have lower := inBounds.hp_nonneg
  have upper := inBounds.hp_le
  exact ⟨inBounds.slots, inBounds.pools, Int.le_max_left _ _, by dsimp only; omega⟩

/-- Hit points that are restored stop at the maximum. -/
theorem heal (inBounds : t.InBounds) {healed : Int} (nonneg : 0 ≤ healed) :
    ({ t with hp := min t.maxHp (t.hp + healed) } : Token).InBounds := by
  have lower := inBounds.hp_nonneg
  have upper := inBounds.hp_le
  exact ⟨inBounds.slots, inBounds.pools, by dsimp only; omega, Int.min_le_left _ _⟩

end Token.InBounds

/-! ### Boards -/

/-- A scene whose items are filed under their own ids. -/
def Scene.IsFiled (s : Scene) : Prop :=
  ∀ id item, Ordered.get? s.nodes id = some (.item item) → item.id = id

namespace Scene

variable {s : Scene}

theorem isFiled_empty (cell : Int) : ({ cell } : Scene).IsFiled := by
  intro id item found
  simp [Ordered.get?] at found

theorem IsFiled.addToken (filed : s.IsFiled) (id : String) (ref : TokenRef) :
    (s.addToken id ref).IsFiled := by
  intro other item found
  rw [Scene.addToken, Ordered.get?_put] at found
  split at found
  · cases found
  · exact filed other item found

/-- A node that is made for an owner holds no item. -/
theorem IsFiled.ensure (filed : s.IsFiled) (id : String) : (s.ensure id).IsFiled := by
  unfold Scene.ensure
  split
  · exact filed
  · intro other item found
    refine filed other item ?_
    rw [Ordered.get?_append_singleton] at found
    cases stood : Ordered.get? s.nodes other with
    | none =>
      rw [stood, Option.none_or] at found
      split at found <;> cases found
    | some occupant => rwa [stood, Option.some_or] at found

theorem IsFiled.addItem (filed : s.IsFiled) (item : Item) (owner : Option String) :
    (s.addItem item owner).IsFiled := by
  have put : ({ s with nodes := Ordered.put s.nodes item.id (.item item) } : Scene).IsFiled := by
    intro other after found
    rw [Ordered.get?_put] at found
    split at found
    · next same =>
      cases found
      exact same.symm
    · exact filed other after found
  unfold Scene.addItem
  cases owner with
  | none => exact put
  | some owner =>
    have ensured := put.ensure owner
    dsimp only
    unfold Scene.link
    dsimp only
    split <;> exact ensured

theorem IsFiled.remove (filed : s.IsFiled) (id : String) : (s.remove id).2.IsFiled := by
  unfold Scene.remove
  split
  · intro other item found
    rw [Ordered.get?_erase] at found
    split at found
    · cases found
    · exact filed other item found
  · exact filed

end Scene

/-- A board on which all limited uses, slots, pools and hit points are in bounds. -/
structure Board.InBounds (b : Board) : Prop where
  uses : ∀ id item left, Ordered.get? b.scene.nodes id = some (.item item) →
    item.uses = some left → 0 ≤ left
  tokens : ∀ ref, ref < b.roster.length → (b.token ref).InBounds

namespace Board

variable {b : Board}

/-- A board stays in bounds if the token does that is changed. -/
theorem InBounds.change (inBounds : b.InBounds) {ref : TokenRef} {f : Token → Token}
    (kept : (b.token ref).InBounds → (f (b.token ref)).InBounds) : (b.change ref f).InBounds := by
  refine ⟨inBounds.uses, fun other listed => ?_⟩
  have known : other < b.roster.length := by simpa [Board.change] using listed
  by_cases same : other = ref
  · subst same
    rw [token_change_self b f known]
    exact kept (inBounds.tokens other known)
  · rw [token_change_ne b f same]
    exact inBounds.tokens other known

/-- What can be looked up after the item under an id has been changed. -/
theorem get?_changeItem (b : Board) (id other : String) (f : Item → Item) {item : Item}
    (found : Ordered.get? (b.changeItem id f).scene.nodes other = some (.item item)) :
    ∃ before, Ordered.get? b.scene.nodes other = some (.item before) ∧
      item = if other = id then f before else before := by
  simp only [changeItem, Scene.changeItem, Ordered.get?_adjust] at found
  split at found
  · next same =>
    cases occupant : Ordered.get? b.scene.nodes other with
    | none => simp [occupant] at found
    | some occupant' =>
      rw [occupant, Option.map_some, Option.some.injEq] at found
      cases occupant' with
      | item before => exact ⟨before, rfl, by cases found; simp [same]⟩
      | token | nothing => cases found
  · next other => exact ⟨item, found, by simp [other]⟩

/-- A use that is taken off the item under its own id leaves no item below zero. -/
theorem InBounds.spendUse (inBounds : b.InBounds) (filed : b.scene.IsFiled) {id : String}
    {item : Item} (found : Ordered.get? b.scene.nodes id = some (.item item))
    (limited : ∀ left, item.uses = some left → 0 < left) :
    (b.changeItem item.id Item.spendUse).InBounds := by
  refine ⟨fun other after left listed spent => ?_, inBounds.tokens⟩
  obtain ⟨before, stood, rfl⟩ := b.get?_changeItem item.id other Item.spendUse listed
  split at spent
  · next same =>
    obtain rfl : before = item := by
      rw [same, filed id item found, found] at stood
      cases stood
      rfl
    cases uses : before.uses with
    | none => simp [Item.spendUse, uses] at spent
    | some most =>
      simp only [Item.spendUse, uses, Option.map_some, Option.some.injEq] at spent
      have := limited most uses
      omega
  · exact inBounds.uses other before left stood spent

/-- Spending a use keeps every item under its own id. -/
theorem isFiled_spendUse (filed : b.scene.IsFiled) (id : String) :
    (b.changeItem id Item.spendUse).scene.IsFiled := by
  intro other after listed
  obtain ⟨before, stood, rfl⟩ := b.get?_changeItem id other Item.spendUse listed
  split <;> exact filed other before stood

/-- A use that can be afforded keeps a board in bounds. -/
theorem InBounds.consume (inBounds : b.InBounds) (filed : b.scene.IsFiled) {id : String}
    {item : Item} {user : TokenRef}
    (found : Ordered.get? b.scene.nodes id = some (.item item))
    (affords : (b.token user).Affords item) : (b.consume user item).InBounds :=
  (inBounds.spendUse filed found affords.use).change fun kept => kept.spend affords

/-- An item that has been found stands in the scene. -/
theorem exists_node_of_findItem {itemId : Option String} {item : Item}
    (found : b.findItem itemId = .ok item) :
    ∃ id, Ordered.get? b.scene.nodes id = some (.item item) := by
  unfold findItem at found
  split at found
  · cases found
  next id _ =>
  split at found
  · cases found
  next listed =>
  cases found
  exact ⟨id, (Scene.item?_eq_some.mp listed).2⟩

/-- A usable item stands in the scene, and the token can pay for it. -/
theorem affords_of_usableItem {user : TokenRef} {itemId : Option String} {item : Item}
    (usable : b.usableItem user itemId = .ok item) :
    (∃ id, Ordered.get? b.scene.nodes id = some (.item item)) ∧ (b.token user).Affords item := by
  unfold usableItem at usable
  split at usable
  · cases usable
  next found =>
  split at usable
  · cases usable
  next reason =>
  cases usable
  exact ⟨exists_node_of_findItem found, Token.affords_of_usable reason⟩

/-- An item that nobody can use stands in the scene, and whoever it is can pay for it. -/
theorem affords_of_itemForNobody {itemId : Option String} {item : Item}
    (usable : b.itemForNobody itemId = .ok item) :
    (∃ id, Ordered.get? b.scene.nodes id = some (.item item)) ∧
      ∀ user : Token, user.Affords item := by
  unfold itemForNobody at usable
  split at usable
  · cases usable
  next found =>
  split at usable
  · cases usable
  next reason =>
  cases usable
  exact ⟨exists_node_of_findItem found, Token.affords_of_usableByNobody reason⟩

end Board

/-! ### Tables -/

namespace Table

/-- A table on whose board everything is in bounds, and every item is under its own id. -/
structure IsSound (table : Table) : Prop where
  filed : table.board.scene.IsFiled
  inBounds : table.board.InBounds

variable {table : Table}

theorem IsSound.remark (sound : table.IsSound) (source : String) (level : Level) (text : String) :
    (table.remark source level text).IsSound := ⟨sound.filed, sound.inBounds⟩

theorem IsSound.dice (sound : table.IsSound) (dice : Dice) :
    ({ table with dice } : Table).IsSound := ⟨sound.filed, sound.inBounds⟩

theorem IsSound.change (sound : table.IsSound) {ref : TokenRef} {f : Token → Token}
    (kept : (table.token ref).InBounds → (f (table.token ref)).InBounds) :
    (table.change ref f).IsSound := ⟨sound.filed, sound.inBounds.change kept⟩

theorem IsSound.hurt (sound : table.IsSound) (target : TokenRef) {damage : Int}
    (nonneg : 0 ≤ damage) :
    (table.change target fun t => { t with hp := max 0 (t.hp - damage) }).IsSound :=
  sound.change fun inBounds => inBounds.hurt nonneg

theorem IsSound.heal (sound : table.IsSound) (target : TokenRef) {healed : Int}
    (nonneg : 0 ≤ healed) :
    (table.change target fun t => { t with hp := min t.maxHp (t.hp + healed) }).IsSound :=
  sound.change fun inBounds => inBounds.heal nonneg

theorem IsSound.consume (sound : table.IsSound) {id : String} {item : Item} {user : TokenRef}
    (found : Ordered.get? table.board.scene.nodes id = some (.item item))
    (affords : (table.token user).Affords item) :
    ({ table with board := table.board.consume user item } : Table).IsSound :=
  ⟨Board.isFiled_spendUse sound.filed item.id, sound.inBounds.consume sound.filed found affords⟩

theorem IsSound.spendUse (sound : table.IsSound) {id : String} {item : Item}
    (found : Ordered.get? table.board.scene.nodes id = some (.item item))
    (limited : ∀ left, item.uses = some left → 0 < left) :
    ({ table with board := table.board.changeItem item.id Item.spendUse } : Table).IsSound :=
  ⟨Board.isFiled_spendUse sound.filed item.id, sound.inBounds.spendUse sound.filed found limited⟩

theorem IsSound.conclude (sound : table.IsSound) (source : String) (figures : List Int)
    (outcome : Outcome) : (table.conclude source figures outcome).2.IsSound := by
  unfold Table.conclude
  split
  · exact sound.remark source .info outcome.message
  · exact sound

theorem IsSound.applyDamage (sound : table.IsSound) (subject target : TokenRef)
    (formula : String) (critical halve : Bool) :
    (table.applyDamage subject target formula critical halve).2.IsSound := by
  unfold Table.applyDamage
  dsimp only
  split
  · exact sound.dice _
  next total _ =>
  have full : 0 ≤ max total 0 := Int.le_max_right _ _
  have nonneg : 0 ≤ if halve then max total 0 / 2 else max total 0 := by
    split
    · exact Int.ediv_nonneg full (by decide)
    · exact full
  generalize (if halve then max total 0 / 2 else max total 0) = damage at nonneg ⊢
  have hurt := (sound.dice (table.dice.rollFormula formula
    (some (table.token subject).modifiers) critical).2).hurt target nonneg
  dsimp only
  split
  · exact hurt
  · exact hurt.remark _ _ _

theorem IsSound.damageOf (sound : table.IsSound) (subject : TokenRef) (attack : ReadyAttack)
    (does critical halve : Bool) :
    (table.damageOf subject attack does critical halve).2.IsSound := by
  unfold Table.damageOf
  split
  · exact sound
  · exact sound.applyDamage _ _ _ _ _

/-- What follows the roll of damage closes the use. -/
theorem IsSound.closeDamage (sound : table.IsSound) {subject : TokenRef} {attack : ReadyAttack}
    {does critical halve : Bool} {close : Int → Table → Played × Table}
    (closes : ∀ damage hurt, hurt.IsSound → (close damage hurt).2.IsSound) :
    (match table.damageOf subject attack does critical halve with
      | (.error mishap, table) => ((.error mishap, table) : Played × Table)
      | (.ok damage, table) => close damage table).2.IsSound := by
  have damaged := sound.damageOf subject attack does critical halve
  split <;> rename_i done <;> rw [done] at damaged
  · exact damaged
  · exact closes _ _ damaged

theorem IsSound.resolveRoll (sound : table.IsSound) (subject : TokenRef) (attack : ReadyAttack)
    (bonus : Int) (override : Option Bool) :
    (table.resolveRoll subject attack bonus override).2.IsSound := by
  unfold Table.resolveRoll
  dsimp only
  split
  · exact sound.dice _
  · exact (sound.dice _).closeDamage fun damage hurt kept => kept.conclude _ _ _

theorem IsSound.rollSave (sound : table.IsSound) (attack : ReadyAttack) (dc : Int) :
    (table.rollSave attack dc).2.IsSound := by
  unfold Table.rollSave
  split
  · exact sound
  · exact sound.dice _

theorem IsSound.resolveSave (sound : table.IsSound) (subject : TokenRef) (attack : ReadyAttack)
    (dc : Int) : (table.resolveSave subject attack dc).2.IsSound := by
  have thrown := sound.rollSave attack dc
  unfold Table.resolveSave
  split
  · next failed => rw [failed] at thrown; exact thrown
  next saved rolled result =>
  rw [result] at thrown
  exact IsSound.closeDamage thrown fun damage hurt kept => kept.conclude _ _ _

/-- An attack with a usable item keeps a table sound, however it goes. -/
theorem IsSound.resolveAttack (sound : table.IsSound) {subject : TokenRef} {attack : ReadyAttack}
    {payload : AttackPayload}
    (usable : table.board.usableItem subject payload.itemId = .ok attack.item) :
    (table.resolveAttack subject attack payload).2.IsSound := by
  obtain ⟨⟨id, found⟩, affords⟩ := Board.affords_of_usableItem usable
  have paid : (if payload.consumeResource then
      { table with board := table.board.consume subject attack.item } else table).IsSound := by
    split
    · exact sound.consume found affords
    · exact sound
  unfold Table.resolveAttack
  dsimp only
  split
  · exact paid.resolveRoll subject attack _ _
  · exact paid.resolveSave subject attack _
  · exact paid.conclude _ _ _

/-- A usable item that is used keeps a table sound, however it goes. -/
theorem IsSound.resolveItem (sound : table.IsSound) {subject : TokenRef} {item : Item}
    {itemId : Option String} (usable : table.board.usableItem subject itemId = .ok item) :
    (table.resolveItem subject item).2.IsSound := by
  obtain ⟨⟨id, found⟩, affords⟩ := Board.affords_of_usableItem usable
  have paid := sound.consume found affords
  unfold Table.resolveItem
  dsimp only
  split
  · exact paid.conclude _ _ _
  split
  · exact paid.dice _
  next healed _ =>
  exact ((paid.dice _).heal subject (Int.le_max_right healed 0)).conclude _ _ _

/-! Nobody spends uses only, and does no damage. -/

theorem IsSound.rollForNobody (sound : table.IsSound) (attack : ReadyAttack) (bonus : Int)
    (override : Option Bool) : (table.rollForNobody attack bonus override).2.IsSound := by
  unfold Table.rollForNobody
  split
  · exact sound
  dsimp only
  split <;> exact sound.dice _

theorem IsSound.saveForNobody (sound : table.IsSound) (attack : ReadyAttack) (dc : Int) :
    (table.saveForNobody attack dc).2.IsSound := by
  have thrown := sound.rollSave attack dc
  unfold Table.saveForNobody
  split <;> rename_i result <;> rw [result] at thrown
  · exact thrown
  · split
    · exact thrown
    · exact IsSound.conclude thrown _ _ _

theorem IsSound.attackForNobody (sound : table.IsSound) (workflow : Bool)
    (payload : AttackPayload) : (table.attackForNobody workflow payload).2.IsSound := by
  unfold Table.attackForNobody
  split
  · exact sound
  next item usable =>
  obtain ⟨⟨id, found⟩, affords⟩ := Board.affords_of_itemForNobody usable
  split
  · exact sound
  · exact sound
  next target _ =>
  split
  · exact sound
  have paid : (if payload.consumeResource then
      { table with board := table.board.changeItem item.id Item.spendUse } else table).IsSound := by
    split
    · exact sound.spendUse found (affords default).use
    · exact sound
  unfold Table.resolveForNobody
  dsimp only
  split
  · exact paid.rollForNobody _ _ _
  · exact paid.saveForNobody _ _
  · exact paid

theorem IsSound.useForNobody (sound : table.IsSound) (workflow : Bool) (payload : ItemPayload) :
    (table.useForNobody workflow payload).2.IsSound := by
  unfold Table.useForNobody
  split
  · exact sound
  next item usable =>
  obtain ⟨⟨id, found⟩, affords⟩ := Board.affords_of_itemForNobody usable
  split
  · exact sound
  · exact sound.spendUse found (affords default).use

end Table

/-! ### Sessions -/

/-- A call by which a token, or nobody, attacks or uses an item: with data of its own, or as an
action that is dispatched. -/
inductive Use where
  | attack (subject : Option TokenRef) (payload : Json)
  | item (subject : Option TokenRef) (payload : Json)
  | dispatched (subject : Option TokenRef) (action : Action)
  deriving Repr

/-- Whether a dispatched action is an attack, or one that is played as an attack, or the use of an
item. -/
def Use.isDirect : Use → Bool
  | .attack .. | .item .. => true
  | .dispatched _ action => action.kind.isAttackLike || action.kind == .item

namespace Session

/-- Make a call of use. -/
def use (s : Session) : Use → Session × Flow
  | .attack (some subject) payload => s.attackAlone subject payload
  | .attack none payload => s.attackForNobody payload
  | .item (some subject) payload => s.useAlone subject payload
  | .item none payload => s.useForNobody payload
  | .dispatched (some subject) action => s.dispatchAlone subject action
  | .dispatched none action => s.dispatchForNobody action

/-- The session after a number of uses. -/
def afterUses (s : Session) (uses : List Use) : Session :=
  uses.foldl (fun s use => (s.use use).1) s

/-- Attacks and items are resolved by the standard rules, as far as they are played. -/
structure IsStandard (s : Session) : Prop where
  attack : s.host.attack ≠ .cued
  item : s.host.item ≠ .cued
  builtIn : s.host.usesWorkflow = false

/-- A use that keeps the host and leaves a sound table. -/
structure Preserves {α : Type} (s : Session) (use : Session × α) : Prop where
  host : use.1.host = s.host
  sound : use.1.table.IsSound

variable {s : Session}

theorem flowOfUse_session (dispatched : Option String) (use : Session × Progress) :
    (flowOfUse dispatched use).1 = use.1 := by
  obtain ⟨next, result | call⟩ := use
  · cases dispatched <;> cases result <;> rfl
  · rfl

theorem Preserves.flow {use : Session × Progress} (preserves : s.Preserves use)
    (dispatched : Option String) : s.Preserves (flowOfUse dispatched use) :=
  ⟨flowOfUse_session dispatched use ▸ preserves.host,
    flowOfUse_session dispatched use ▸ preserves.sound⟩

/-- A use of which nothing comes. -/
theorem preserves_nothing (sound : s.table.IsSound) (progress : Progress) :
    s.Preserves (s, progress) := ⟨rfl, sound⟩

theorem preserves_resolved {result : Played × Table} (sound : result.2.IsSound) :
    s.Preserves (s.resolved result) := ⟨rfl, sound.filed, sound.inBounds⟩

theorem preserves_playAttack (standard : s.IsStandard) (sound : s.table.IsSound)
    (subject : TokenRef) (payload : AttackPayload) :
    s.Preserves (s.playAttack subject payload) := by
  unfold playAttack
  rcases prepareAttack_cases s.table.board subject payload s.host.reveals with
    ⟨outcome, refused, -⟩ | ⟨ready, prepared, usable⟩
  · rw [refused]
    exact preserves_nothing sound _
  · simp only [prepared, standard.builtIn, Bool.false_eq_true, if_false]
    exact preserves_resolved (sound.resolveAttack usable)

theorem preserves_playItem (standard : s.IsStandard) (sound : s.table.IsSound)
    (subject : TokenRef) (payload : ItemPayload) : s.Preserves (s.playItem subject payload) := by
  unfold playItem
  split
  · exact preserves_nothing sound _
  next item usable =>
  simp only [standard.builtIn, Bool.false_eq_true, if_false]
  exact preserves_resolved (sound.resolveItem usable)

theorem preserves_playAlone {π : Type} (sound : s.table.IsSound) (payload : Record.Checked π)
    {play : π → Session × Progress} (plays : ∀ payload, s.Preserves (play payload)) :
    s.Preserves (s.playAlone payload play) := by
  refine Preserves.flow ?_ none
  split
  · exact plays _
  · exact preserves_nothing sound _

theorem preserves_playAs {π : Type} (sound : s.table.IsSound) (part : Part) (player : Player)
    (action : Action) (read : Fields → Record.Checked π) {play : π → Session × Progress}
    (plays : ∀ payload, s.Preserves (play payload)) :
    s.Preserves (s.playAs part player action read play) := by
  unfold playAs
  split
  · exact preserves_nothing sound _
  split
  · exact preserves_nothing sound _
  · exact plays _

theorem preserves_playForNobody {π : Type} (sound : s.table.IsSound) (player : Player)
    {play : π → Played × Table} {payload : π} (plays : (play payload).2.IsSound) :
    s.Preserves (s.playForNobody player play payload) := by
  unfold playForNobody
  split
  · exact preserves_nothing sound _
  · exact preserves_resolved plays

/-- A dispatched attack or item goes to whoever plays it. -/
theorem preserves_dispatchBy {action : Action} (sound : s.table.IsSound)
    (direct : (action.kind.isAttackLike || action.kind == .item) = true)
    {move : MovementPayload → Session × Progress} {attack : AttackPayload → Session × Progress}
    {use : ItemPayload → Session × Progress} (attacks : ∀ payload, s.Preserves (attack payload))
    (uses : ∀ payload, s.Preserves (use payload)) :
    s.Preserves (s.dispatchBy action move attack use) := by
  unfold dispatchBy
  cases kind : action.kind with
  | attack | spell | bonusAction | reaction => exact preserves_playAs sound _ _ _ _ attacks
  | item => exact preserves_playAs sound _ _ _ _ uses
  | movement | endTurn | other => simp [kind, ActionKind.isAttackLike] at direct

/-- Every use keeps a table sound. -/
theorem preserves_use (standard : s.IsStandard) (sound : s.table.IsSound) {use : Use}
    (direct : use.isDirect = true) : s.Preserves (s.use use) := by
  cases use with
  | attack subject payload =>
    cases subject with
    | none =>
      exact preserves_playAlone sound _ fun p => preserves_resolved (sound.attackForNobody _ p)
    | some subject =>
      exact preserves_playAlone sound _ fun p => preserves_playAttack standard sound subject p
  | item subject payload =>
    cases subject with
    | none =>
      exact preserves_playAlone sound _ fun p => preserves_resolved (sound.useForNobody _ p)
    | some subject =>
      exact preserves_playAlone sound _ fun p => preserves_playItem standard sound subject p
  | dispatched subject action =>
    cases subject with
    | none =>
      refine (preserves_dispatchBy sound direct (fun p => ?_) fun p => ?_).flow _
      · exact preserves_playForNobody sound _ (sound.attackForNobody _ p)
      · exact preserves_playForNobody sound _ (sound.useForNobody _ p)
    | some subject =>
      refine (preserves_dispatchBy sound direct (fun p => ?_) fun p => ?_).flow _
      · simpa only [standard.attack, if_false] using preserves_playAttack standard sound subject p
      · simpa only [standard.item, if_false] using preserves_playItem standard sound subject p

/-- After any number of attacks and uses of items by the standard rules, all limited uses, slots,
pools and hit points are in bounds if they were before, and whatever can be used next, whoever uses
it has an entry with something left for all that it costs. -/
theorem bounds_kept {uses : List Use} (standard : s.IsStandard)
    (direct : ∀ use ∈ uses, use.isDirect = true) (filed : s.table.board.scene.IsFiled)
    (inBounds : s.table.board.InBounds) :
    let b := (s.afterUses uses).table.board
    b.InBounds ∧
      (∀ subject itemId item, b.usableItem subject itemId = .ok item →
        (b.token subject).Affords item) ∧
      ∀ itemId item, b.itemForNobody itemId = .ok item → ∀ user : Token, user.Affords item := by
  have sound : (s.afterUses uses).table.IsSound := by
    have begun : s.table.IsSound := ⟨filed, inBounds⟩
    clear filed inBounds
    induction uses generalizing s with
    | nil => exact begun
    | cons use rest inductionHypothesis =>
      have preserves := preserves_use standard begun (direct use List.mem_cons_self)
      have standard : (s.use use).1.IsStandard :=
        ⟨preserves.host ▸ standard.attack, preserves.host ▸ standard.item,
          preserves.host ▸ standard.builtIn⟩
      exact inductionHypothesis standard (fun other member => direct other
        (List.mem_cons_of_mem _ member)) preserves.sound
  exact ⟨sound.inBounds, fun _ _ _ usable => (Board.affords_of_usableItem usable).2,
    fun _ _ usable => (Board.affords_of_itemForNobody usable).2⟩

/-- The hero uses the wand on the orc four times, and nobody tries it once. The wand has three
uses, the first roll hits, and there are no rolls for more. -/
def attempts : List Use :=
  List.replicate 4 (.dispatched (some 0) zap) ++ [.item none (.obj [("itemUuid", .str "wand")])]

theorem bounds_kept_duel :
    (duel.afterUses attempts).table.board.InBounds ∧
      ((duel.afterUses attempts).table.board.scene.item? "wand").map (·.uses) = some (some 0) := by
  have inScene : ∀ id item, Ordered.get? duel.table.board.scene.nodes id = some (.item item) →
      id = "wand" ∧ item = wand := by
    intro id item found
    simp only [duel, Ordered.get?_cons, Ordered.get?_nil] at found
    split at found
    · cases found
    split at found
    · cases found
    split at found
    · next named => cases found; exact ⟨named, rfl⟩
    · cases found
  have inBounds : ∀ t ∈ duel.table.board.roster, t.InBounds := by
    simp only [duel, List.forall_mem_cons, List.not_mem_nil, false_implies, implies_true, and_true]
    constructor <;> exact ⟨by simp, by simp, by decide, by decide⟩
  refine ⟨(bounds_kept ⟨by decide, by decide, rfl⟩ (by decide +kernel) ?_ ⟨?_, ?_⟩).1, ?_⟩
  · intro id item found
    obtain ⟨rfl, rfl⟩ := inScene id item found
    rfl
  · intro id item left found limited
    obtain ⟨rfl, rfl⟩ := inScene id item found
    cases limited
    decide
  · intro ref listed
    have here : duel.table.board.token ref = duel.table.board.roster[ref] := by
      simp [Board.token, List.getD, listed]
    rw [here]
    exact inBounds _ (List.getElem_mem listed)
  · decide +kernel

end Session
end TurnScript
