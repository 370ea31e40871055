import TurnScript.Proofs.Dice.Throws
import TurnScript.Proofs.Play.Bounds
import TurnScript.Proofs.Play.Targets

/-!
# What an attack leaves behind

An attack that the standard rules resolve has been paid for by its user, if it was to be, and has
hurt its target, if its item makes an attack roll or asks for a saving throw. Payment and damage are
each one change of one token or item, so whatever is left as it was needs no list: every other item,
and every other part of every token, is untouched. The damage is told by the dice.
-/

namespace TurnScript

/-! ## How an item works -/

/-- The harm that the formula of an item comes to: none without a formula, and never less. -/
inductive Item.Harms (item : Item) (values : List (String × Int)) (critical : Bool) :
    Dice → Int → Dice → Prop where
  | harmless {dice : Dice} (unwritten : nonempty item.damage = none) :
      Harms item values critical dice 0 dice
  | harmful {formula : String} {dice after : Dice} {total : Int}
      (written : nonempty item.damage = some formula)
      (comes : Formula.WrittenComes formula (some values) critical dice total after) :
      Harms item values critical dice (max total 0) after

/-- How an item works on a target by the standard rules, from the dice before to the dice after. An
attack roll takes precedence over a saving throw, and hits with a natural twenty always, with a
natural one never. -/
inductive Item.Works (item : Item) (user target : Token) (override : Option Bool)
    (outcome : Outcome) : Dice → Dice → Prop where
  | misses {bonus natural : Int} {dice after : Dice} (attacks : item.attackBonus = some bonus)
      (lands : dice.Lands (Table.edge user override).1 (Table.edge user override).2 natural after)
      (low : natural = 1 ∨ natural ≠ 20 ∧ natural + bonus < target.ac)
      (hit : outcome.hit = some false) (critical : outcome.critical = some false)
      (damage : outcome.damage = some 0) : Works item user target override outcome dice after
  | hits {bonus natural full : Int} {dice between after : Dice}
      (attacks : item.attackBonus = some bonus)
      (lands : dice.Lands (Table.edge user override).1 (Table.edge user override).2 natural between)
      (high : natural = 20 ∨ natural ≠ 1 ∧ target.ac ≤ natural + bonus)
      (harms : item.Harms user.modifiers (natural == 20) between full after)
      (hit : outcome.hit = some true) (critical : outcome.critical = some (natural == 20))
      (damage : outcome.damage = some full) : Works item user target override outcome dice after
  | throws {dc score natural full : Int} {saved : Bool} {dice between after : Dice}
      (attackless : item.attackBonus = none) (saves : item.saveDc = some dc)
      (scored : target.score? item.saveAbility = some score)
      (lands : dice.Lands false false natural between)
      (rule : saved = true ↔ dc ≤ natural + scoreModifier score)
      (harms : item.Harms user.modifiers false between full after)
      (hit : outcome.hit = some !saved) (told : outcome.saved = some saved)
      (damage : outcome.damage = some (if saved then full / 2 else full)) :
      Works item user target override outcome dice after
  | plain {dice : Dice} (attackless : item.attackBonus = none) (saveless : item.saveDc = none)
      (damage : outcome.damage = none) : Works item user target override outcome dice dice

/-! ## What changes -/

/-- A board on which nothing but the hit points of one token has changed: the damage has come off
them, but not below zero. -/
structure Board.Hurt (b after : Board) (target : TokenRef) (damage : Int) : Prop where
  scene : after.scene = b.scene
  roster : after.roster.length = b.roster.length
  tokens : ∀ ref, after.token ref = if ref = target
    then { b.token ref with hp := max 0 ((b.token ref).hp - damage) } else b.token ref

/-- A token from which a use of an item has been paid: one of each of the entries that it costs,
which it had, and nothing else. -/
structure Token.Pays (user after : Token) (item : Item) : Prop where
  slot : 0 < item.level → ∃ left, 0 < left ∧
    Ordered.get? user.spellSlots item.level = some left ∧
    Ordered.get? after.spellSlots item.level = some (left - 1)
  slots : ∀ level, (0 < item.level → level ≠ item.level) →
    Ordered.get? after.spellSlots level = Ordered.get? user.spellSlots level
  point : ∀ pool, nonempty item.consumeTarget = some pool → ∃ left, 0 < left ∧
    Ordered.get? user.resources pool = some left ∧
    Ordered.get? after.resources pool = some (left - 1)
  points : ∀ pool, nonempty item.consumeTarget ≠ some pool →
    Ordered.get? after.resources pool = Ordered.get? user.resources pool
  rest : { after with spellSlots := user.spellSlots, resources := user.resources } = user

/-- A board on which a use of an item has been paid for: one of its limited uses, if they are
limited, of which there was one, and what it costs its user. -/
structure Board.Paid (b after : Board) (user : TokenRef) (item : Item) : Prop where
  limited : ∀ left, item.uses = some left → 0 < left
  stood : Ordered.get? b.scene.nodes item.id = some (.item item)
  used : Ordered.get? after.scene.nodes item.id =
    some (.item { item with uses := item.uses.map (· - 1) })
  nodes : ∀ id, id ≠ item.id → Ordered.get? after.scene.nodes id = Ordered.get? b.scene.nodes id
  ids : Ordered.keys after.scene.nodes = Ordered.keys b.scene.nodes
  scene : { after.scene with nodes := b.scene.nodes } = b.scene
  roster : after.roster.length = b.roster.length
  payment : (b.token user).Pays (after.token user) item
  tokens : ∀ ref, ref ≠ user → after.token ref = b.token ref

/-! ## Payment -/

namespace Ordered

variable {κ : Type} [BEq κ] [LawfulBEq κ] [DecidableEq κ]

/-- One taken off an entry that is listed. -/
theorem get?_take_one {entries : List (κ × Int)} {key : κ} {left : Int}
    (listed : get? entries key = some left) :
    get? (adjust entries key (· - 1)) key = some (left - 1) := by
  rw [get?_adjust, if_pos rfl, listed, Option.map_some]

end Ordered

/-- A token that can afford an item pays for it. -/
theorem Token.Affords.pays {user : Token} {item : Item} (affords : user.Affords item) :
    user.Pays (user.spend item) item := by
  have leveled : ∀ level, Ordered.get? (user.spend item).spellSlots level =
      Ordered.get? (if 0 < item.level then Ordered.adjust user.spellSlots item.level (· - 1)
        else user.spellSlots) level := by
    intro level
    unfold Token.spend
    split <;> split <;> rfl
  have pooled : (user.spend item).resources = ((nonempty item.consumeTarget).map fun pool =>
      Ordered.adjust user.resources pool (· - 1)).getD user.resources := by
    unfold Token.spend
    cases nonempty item.consumeTarget <;> dsimp only <;> split <;> rfl
  constructor
  · intro positive
    obtain ⟨left, listed, some⟩ := affords.slot positive
    refine ⟨left, some, listed, ?_⟩
    rw [leveled, if_pos positive]
    exact Ordered.get?_take_one listed
  · intro level other
    rw [leveled]
    split
    · next positive => rw [Ordered.get?_adjust, if_neg (other positive)]
    · rfl
  · intro pool named
    obtain ⟨left, listed, some⟩ := affords.point pool named
    refine ⟨left, some, listed, ?_⟩
    rw [pooled, named]
    exact Ordered.get?_take_one listed
  · intro pool other
    rw [pooled]
    cases named : nonempty item.consumeTarget with
    | none => rfl
    | some spent =>
      have distinct : pool ≠ spent := by
        rintro rfl
        exact other named
      rw [Option.map_some, Option.getD_some, Ordered.get?_adjust, if_neg distinct]
  · unfold Token.spend
    dsimp only
    split <;> split <;> rfl

namespace Board

variable {b after : Board}

/-- A user that is not on the roster is changed by payment as any other, for it has nothing. -/
theorem token_consume_self (b : Board) (user : TokenRef) (item : Item) :
    (b.consume user item).token user = (b.token user).spend item := by
  by_cases listed : user < b.roster.length
  · exact token_change_self _ _ listed
  · have still : (b.consume user item).token user = default :=
      token_of_unlisted _ (by simpa [consume, change, changeItem] using listed)
    rw [still, b.token_of_unlisted listed]
    unfold Token.spend
    split <;> split <;> rfl

theorem nodes_consume (b : Board) (user : TokenRef) (item : Item) :
    ∃ spend : Occupant → Occupant,
      (b.consume user item).scene.nodes = Ordered.adjust b.scene.nodes item.id spend ∧
      spend (.item item) = .item item.spendUse := by
  simp only [Board.consume, Board.change, Board.changeItem, Scene.changeItem]
  exact ⟨_, rfl, rfl⟩

/-- A use of an item that stands under its id, and that its user can afford, is paid for. -/
theorem paid_consume {user : TokenRef} {item : Item}
    (stands : Ordered.get? b.scene.nodes item.id = some (.item item))
    (affords : (b.token user).Affords item) : b.Paid (b.consume user item) user item := by
  obtain ⟨spend, nodes, spent⟩ := b.nodes_consume user item
  constructor
  · exact affords.use
  · exact stands
  · rw [nodes, Ordered.get?_adjust, if_pos rfl, stands, Option.map_some, spent]
    rfl
  · intro id other
    rw [nodes, Ordered.get?_adjust, if_neg other]
  · rw [nodes, Ordered.keys_adjust]
  · rfl
  · exact List.length_modify _ _ _
  · rw [token_consume_self]
    exact affords.pays
  · intro ref other
    exact token_change_ne _ _ other

/-! ## Damage -/

theorem Hurt.none (b : Board) {target : TokenRef} (nonneg : 0 ≤ (b.token target).hp) :
    b.Hurt b target 0 := by
  refine ⟨rfl, rfl, ?_⟩
  intro ref
  split
  · next same =>
    rw [same, Int.sub_zero, Int.max_eq_right nonneg]
  · rfl

theorem Hurt.change (b : Board) {target : TokenRef} (listed : target < b.roster.length)
    (damage : Int) :
    b.Hurt (b.change target fun t => { t with hp := max 0 (t.hp - damage) }) target damage := by
  refine ⟨rfl, List.length_modify _ _ _, ?_⟩
  intro ref
  split
  · next same =>
    rw [same, token_change_self b _ listed]
  · next other => exact token_change_ne b _ other

end Board

/-! ## Boards in order -/

/-- A board whose scene files items under their own ids and holds only tokens of the roster. -/
structure Board.IsOrderly (b : Board) : Prop where
  filed : b.scene.IsFiled
  rostered : ∀ ref ∈ b.scene.tokens, ref < b.roster.length

/-- The tokens of a scene are those that a node holds. -/
theorem Scene.mem_tokens {s : Scene} {ref : TokenRef} :
    ref ∈ s.tokens ↔ ∃ id, (id, .token ref) ∈ s.nodes := by
  unfold Scene.tokens
  rw [List.mem_filterMap]
  constructor
  · rintro ⟨⟨id, occupant⟩, member, holds⟩
    cases occupant with
    | token other =>
      cases holds
      exact ⟨id, member⟩
    | item | nothing => cases holds
  · rintro ⟨id, member⟩
    exact ⟨_, member, rfl⟩

namespace Board.IsOrderly

variable {b : Board}

theorem empty (cell : Int) : ({ scene := { cell } } : Board).IsOrderly where
  filed := Scene.isFiled_empty cell
  rostered _ held := by cases held

theorem addToken (orderly : b.IsOrderly) (t : Token) : (b.addToken t).IsOrderly where
  filed := orderly.filed.addToken t.id b.roster.length
  rostered ref held := by
    have longer : (b.addToken t).roster.length = b.roster.length + 1 := List.length_append
    rw [longer]
    obtain ⟨id, member⟩ := Scene.mem_tokens.mp held
    rcases Ordered.mem_put member with new | old
    · cases new
      exact Nat.lt_succ_self _
    · exact Nat.lt_succ_of_lt (orderly.rostered ref (Scene.mem_tokens.mpr ⟨id, old⟩))

theorem addItem (orderly : b.IsOrderly) (item : Item) (owner : Option String) :
    (b.addItem item owner).IsOrderly where
  filed := orderly.filed.addItem item owner
  rostered ref held := by
    apply orderly.rostered ref
    obtain ⟨id, member⟩ := Scene.mem_tokens.mp held
    have put : (id, .token ref) ∈ Ordered.put b.scene.nodes item.id (.item item) := by
      cases owner with
      | none => exact member
      | some owner =>
        have ensured : (id, .token ref) ∈
            ({ b.scene with nodes := Ordered.put b.scene.nodes item.id (.item item) }.ensure
              owner).nodes := by
          simp only [Board.addItem, Scene.addItem, Scene.link] at member
          split at member <;> exact member
        unfold Scene.ensure at ensured
        split at ensured
        · exact ensured
        · simpa using ensured
    rcases Ordered.mem_put put with new | old
    · cases new
    · exact Scene.mem_tokens.mpr ⟨id, old⟩

theorem remove (orderly : b.IsOrderly) (id : String) : (b.remove id).2.IsOrderly where
  filed := orderly.filed.remove id
  rostered ref held := by
    apply orderly.rostered ref
    obtain ⟨other, member⟩ := Scene.mem_tokens.mp held
    change _ ∈ (b.scene.remove id).2.nodes at member
    unfold Scene.remove at member
    split at member
    · exact Scene.mem_tokens.mpr ⟨other, (List.mem_filter.mp member).1⟩
    · exact Scene.mem_tokens.mpr ⟨other, member⟩

end Board.IsOrderly

/-! ## Targets -/

namespace Board

variable {b : Board}

/-- The token under an id is one of the scene's. -/
theorem mem_tokens_of_tokenRef? {id : String} {ref : TokenRef}
    (found : b.scene.tokenRef? id = some ref) : ref ∈ b.scene.tokens := by
  have occupant := Scene.tokenRef?_eq_some.mp found
  exact Scene.mem_tokens.mpr ⟨id, Ordered.mem_of_get? occupant⟩

/-- A target is a token of the scene, and it is alive. -/
theorem of_findTarget {subject target : TokenRef} {payload : AttackPayload} {reveal : Bool}
    (found : b.findTarget subject payload reveal = some target) :
    target ∈ b.scene.tokens ∧ (b.token target).alive = true := by
  unfold findTarget at found
  split at found
  · obtain ⟨held, alive⟩ := Option.filter_eq_some_iff.mp found
    exact ⟨mem_tokens_of_tokenRef? held, alive⟩
  · obtain ⟨member, hostile⟩ := mem_hostilesOf.mp (mem_of_selectTarget found)
    simp only [isHostile, Bool.and_eq_true] at hostile
    exact ⟨member, hostile.1.2⟩

end Board

/-! ## Resolution -/

namespace Table

variable {table after : Table} {subject : TokenRef} {attack : ReadyAttack}

/-- A use that is closed has its outcome, and the board and the dice stay. -/
theorem of_conclude_eq_ok {source : String} {figures : List Int} {outcome told : Outcome}
    (closes : table.conclude source figures outcome = (.ok told, after)) :
    told = outcome ∧ after.board = table.board ∧ after.dice = table.dice := by
  unfold conclude at closes
  split at closes
  · cases closes
    exact ⟨rfl, rfl, rfl⟩
  · cases closes

/-- A remark that may be left out changes neither the board nor the dice. -/
theorem remark_unless (silent : Bool) (source : String) (level : Level) (text : String) :
    (if silent then table else table.remark source level text).board = table.board ∧
      (if silent then table else table.remark source level text).dice = table.dice := by
  cases silent <;> exact ⟨rfl, rfl⟩

/-- Damage that is done is what its formula comes to, or half of that. -/
theorem of_applyDamage_eq_ok {target : TokenRef} {formula : String} {critical halve : Bool}
    {damage : Int}
    (done : table.applyDamage subject target formula critical halve = (.ok damage, after))
    (listed : target < table.board.roster.length) :
    ∃ total, Formula.WrittenComes formula (some (table.token subject).modifiers) critical
        table.dice total after.dice ∧
      damage = (if halve then max total 0 / 2 else max total 0) ∧
      table.board.Hurt after.board target damage := by
  unfold applyDamage at done
  dsimp only at done
  split at done
  · cases done
  · next total rolled =>
    obtain ⟨told, left⟩ := Prod.mk.inj done
    obtain rfl := Except.ok.inj told
    have comes := Dice.rollFormula_eq_ok_iff.mp (Prod.ext rolled rfl)
    subst left
    refine ⟨total, ?_, rfl, ?_⟩
    · rw [(remark_unless _ _ _ _).2]
      exact comes
    · rw [(remark_unless _ _ _ _).1]
      exact Board.Hurt.change table.board listed _

/-- Damage of an item that is to do some. -/
theorem of_damageOf_eq_ok {critical halve : Bool} {damage : Int}
    (done : table.damageOf subject attack true critical halve = (.ok damage, after))
    (listed : attack.target < table.board.roster.length)
    (nonneg : 0 ≤ (table.token attack.target).hp) :
    ∃ full, attack.item.Harms (table.token subject).modifiers critical table.dice full after.dice ∧
      damage = (if halve then full / 2 else full) ∧
      table.board.Hurt after.board attack.target damage := by
  unfold damageOf at done
  rw [if_pos rfl] at done
  split at done
  · next unwritten =>
    cases done
    refine ⟨0, .harmless unwritten, ?_, Board.Hurt.none _ nonneg⟩
    split <;> rfl
  · next formula written =>
    obtain ⟨total, comes, rfl, hurt⟩ := of_applyDamage_eq_ok done listed
    exact ⟨max total 0, .harmful written comes, rfl, hurt⟩

/-- A natural twenty hits, a natural one misses, and otherwise the total decides. -/
theorem hits_iff {roll : AttackRoll} {ac : Int} :
    roll.hits ac = true ↔ roll.natural = 20 ∨ roll.natural ≠ 1 ∧ ac ≤ roll.total := by
  unfold AttackRoll.hits AttackRoll.critical AttackRoll.fumble
  by_cases twenty : roll.natural = 20
  · simp [twenty]
  · by_cases one : roll.natural = 1
    · simp [one]
    · simp [twenty, one]

/-- An attack that is resolved by a roll. -/
theorem of_resolveRoll_eq_ok {bonus : Int} {override : Option Bool} {outcome : Outcome}
    (done : table.resolveRoll subject attack bonus override = (.ok outcome, after))
    (listed : attack.target < table.board.roster.length)
    (nonneg : 0 ≤ (table.token attack.target).hp)
    (attacks : attack.item.attackBonus = some bonus) :
    attack.item.Works (table.token subject) (table.token attack.target) override outcome
        table.dice after.dice ∧
      table.board.Hurt after.board attack.target (outcome.damage.getD 0) := by
  unfold resolveRoll at done
  cases rolled : table.dice.attackRoll bonus (edge (table.token subject) override).1
      (edge (table.token subject) override).2 with
  | mk result dice =>
  simp only [rolled] at done
  cases result with
  | error error => cases done
  | ok roll =>
  obtain ⟨lands, total⟩ := Dice.lands_of_attackRoll rolled
  have target : ({ table with dice } : Table).token attack.target = table.token attack.target := rfl
  dsimp only at done
  rw [target] at done
  cases hit : roll.hits (table.token attack.target).ac with
  | false =>
    have low : ¬ (roll.natural = 20 ∨
        roll.natural ≠ 1 ∧ (table.token attack.target).ac ≤ roll.total) := by
      rw [← hits_iff, hit]
      exact Bool.false_ne_true
    rw [hit] at done
    obtain ⟨rfl, board, dice⟩ := of_conclude_eq_ok done
    rw [board, dice]
    refine ⟨.misses attacks lands ?_ rfl ?_ rfl, Board.Hurt.none _ nonneg⟩
    · omega
    · have common : roll.natural ≠ 20 := fun twenty => low (.inl twenty)
      simp [AttackRoll.critical, common]
  | true =>
    have high := hits_iff.mp hit
    rw [hit] at done
    split at done
    · cases done
    next damage hurt did =>
    obtain ⟨full, harms, rfl, wounds⟩ := of_damageOf_eq_ok did listed nonneg
    obtain ⟨rfl, board, dice⟩ := of_conclude_eq_ok done
    rw [board, dice]
    exact ⟨.hits attacks lands (total ▸ high) harms rfl rfl rfl, wounds⟩

/-- A saving throw that is made. -/
theorem of_rollSave_eq_ok {dc : Int} {saved : Bool}
    (done : table.rollSave attack dc = (.ok saved, after)) :
    ∃ score natural, (table.token attack.target).score? attack.item.saveAbility = some score ∧
      table.dice.Lands false false natural after.dice ∧
      (saved = true ↔ dc ≤ natural + scoreModifier score) ∧ after.board = table.board := by
  unfold rollSave at done
  split at done
  · cases done
  next score scored =>
  cases made : table.dice.savingThrow score dc with
  | mk result dice =>
    rw [made] at done
    cases result with
    | error error => cases done
    | ok told =>
      cases done
      obtain ⟨natural, lands, rfl⟩ := Dice.lands_of_savingThrow made
      exact ⟨score, natural, scored, lands, decide_eq_true_iff, rfl⟩

/-- An attack that is resolved by a saving throw. -/
theorem of_resolveSave_eq_ok {dc : Int} {override : Option Bool} {outcome : Outcome}
    (done : table.resolveSave subject attack dc = (.ok outcome, after))
    (listed : attack.target < table.board.roster.length)
    (nonneg : 0 ≤ (table.token attack.target).hp)
    (attackless : attack.item.attackBonus = none) (saves : attack.item.saveDc = some dc) :
    attack.item.Works (table.token subject) (table.token attack.target) override outcome
        table.dice after.dice ∧
      table.board.Hurt after.board attack.target (outcome.damage.getD 0) := by
  unfold resolveSave at done
  split at done
  · cases done
  next saved thrown made =>
  obtain ⟨score, natural, scored, lands, rule, same⟩ := of_rollSave_eq_ok made
  have tokens : ∀ ref, thrown.token ref = table.token ref := by
    intro ref
    rw [token, token, same]
  split at done
  · cases done
  next damage hurt did =>
  obtain ⟨full, harms, rfl, wounds⟩ := of_damageOf_eq_ok did (by rwa [same]) (by rwa [tokens])
  obtain ⟨rfl, board, dice⟩ := of_conclude_eq_ok done
  rw [tokens] at harms
  rw [same] at wounds
  rw [board, dice]
  exact ⟨.throws attackless saves scored lands rule harms rfl rfl rfl, wounds⟩

/-- An attack is resolved by its item: one with an attack roll or a saving throw hurts its target,
and any other hurts nobody. -/
theorem of_resolveAttack_eq_ok {payload : AttackPayload} {paid : Board} {outcome : Outcome}
    (done : table.resolveAttack subject attack payload = (.ok outcome, after))
    (pays : paid = table.board.paid subject attack.item payload.consumeResource)
    (listed : attack.target < paid.roster.length) (nonneg : 0 ≤ (paid.token attack.target).hp) :
    attack.item.Works (paid.token subject) (paid.token attack.target) payload.advantageOverride
        outcome table.dice after.dice ∧
      if attack.item.hasAttack || attack.item.hasSave
      then paid.Hurt after.board attack.target (outcome.damage.getD 0) else after.board = paid := by
  have settled : (if payload.consumeResource then
      { table with board := table.board.consume subject attack.item } else table) =
      { table with board := paid } := by
    subst pays
    cases payload.consumeResource <;> rfl
  unfold resolveAttack at done
  rw [settled] at done
  dsimp only at done
  split at done
  · next bonus attacks =>
    have hurts : (attack.item.hasAttack || attack.item.hasSave) = true := by
      simp [Item.hasAttack, attacks]
    rw [if_pos hurts]
    exact of_resolveRoll_eq_ok done listed nonneg attacks
  · next dc attackless saves =>
    have hurts : (attack.item.hasAttack || attack.item.hasSave) = true := by
      simp [Item.hasSave, saves]
    rw [if_pos hurts]
    exact of_resolveSave_eq_ok done listed nonneg attackless saves
  · next attackless saveless =>
    obtain ⟨rfl, board, dice⟩ := of_conclude_eq_ok done
    rw [dice, board]
    refine ⟨.plain attackless saveless rfl, ?_⟩
    simp [Item.hasAttack, Item.hasSave, attackless, saveless]

end Table

theorem Board.length_paid (b : Board) (user : TokenRef) (item : Item) (pays : Bool) :
    (b.paid user item pays).roster.length = b.roster.length := by
  cases pays with
  | false => rfl
  | true => exact List.length_modify _ _ _

/-- Payment, if there is any, leaves everything of a token but its slots and pools. -/
theorem Board.seen_paid {b : Board} {user : TokenRef} {item : Item} {pays : Bool}
    (paid : if pays then b.Paid (b.paid user item pays) user item else b.paid user item pays = b)
    (ref : TokenRef) : ∃ slots pools, (b.paid user item pays).token ref =
      { b.token ref with spellSlots := slots, resources := pools } := by
  cases pays with
  | false => exact ⟨(b.token ref).spellSlots, (b.token ref).resources, rfl⟩
  | true =>
    by_cases same : ref = user
    · subst same
      refine ⟨((b.paid ref item true).token ref).spellSlots,
        ((b.paid ref item true).token ref).resources, ?_⟩
      rw [← paid.payment.rest]
    · exact ⟨(b.token ref).spellSlots, (b.token ref).resources, paid.tokens ref same⟩

/-- How an item works does not depend on slots and pools. -/
theorem Item.Works.unpaid {item : Item} {user target : Token} {override : Option Bool}
    {outcome : Outcome} {dice after : Dice} {slots slots' : List (Int × Int)}
    {pools pools' : List (String × Int)}
    (works : item.Works { user with spellSlots := slots, resources := pools }
      { target with spellSlots := slots', resources := pools' } override outcome dice after) :
    item.Works user target override outcome dice after := by
  cases works with
  | misses attacks lands low hit critical damage =>
    exact .misses attacks lands low hit critical damage
  | hits attacks lands high harms hit critical damage =>
    exact .hits attacks lands high harms hit critical damage
  | throws attackless saves scored lands rule harms hit told damage =>
    exact .throws attackless saves scored lands rule harms hit told damage
  | plain attackless saveless damage => exact .plain attackless saveless damage

/-! ## Attacks -/

/-- What an attack leaves behind that has been resolved. With the item that was usable and the
target that was found before any roll, the use has been paid for if it was to be, and of what was
paid for nothing but the hit points of the target has changed. -/
def Session.Aftermath (s : Session) (subject : TokenRef) (payload : AttackPayload)
    (outcome : Outcome) (table : Table) : Prop :=
  ∃ item target paid,
    s.table.board.usableItem subject payload.itemId = .ok item ∧
    s.table.board.findTarget subject payload s.host.reveals = some target ∧
    (if payload.consumeResource then s.table.board.Paid paid subject item
      else paid = s.table.board) ∧
    item.Works (s.token subject) (s.token target) payload.advantageOverride outcome
      s.table.dice table.dice ∧
    if item.hasAttack || item.hasSave
    then paid.Hurt table.board target (outcome.damage.getD 0) else table.board = paid

namespace Session

variable {s : Session} {subject : TokenRef} {payload : AttackPayload}

/-- An attack that is resolved by the standard rules with success leaves a table on which its use
has been paid for and its damage done, and nothing else. -/
theorem attacks_leave {after : Session} {outcome : Outcome} (orderly : s.table.board.IsOrderly)
    (builtIn : s.host.usesWorkflow = false)
    (played : s.playAttack subject payload = (after, .done (.ok outcome)))
    (success : outcome.success = true) :
    ∃ table, after = s.withTable table ∧ s.Aftermath subject payload outcome table := by
  unfold playAttack Board.prepareAttack at played
  cases usable : s.table.board.usableItem subject payload.itemId with
  | error refusal =>
    rw [usable] at played
    cases played
    obtain ⟨kind, message, rfl, -⟩ := failure_of_usableItem usable
    cases success
  | ok item =>
  rw [usable] at played
  cases found : s.table.board.findTarget subject payload s.host.reveals with
  | none =>
    rw [found] at played
    cases played
    cases success
  | some target =>
  rw [found] at played
  simp only [builtIn, Bool.false_eq_true, if_false] at played
  cases resolved : s.table.resolveAttack subject ⟨item, target⟩ payload with
  | mk result table =>
  rw [resolved] at played
  cases played
  obtain ⟨held, alive⟩ := Board.of_findTarget found
  obtain ⟨⟨id, stands⟩, affords⟩ := Board.affords_of_usableItem usable
  obtain rfl := orderly.filed id item stands
  have paid : if payload.consumeResource then
      s.table.board.Paid (s.table.board.paid subject item payload.consumeResource) subject item
      else s.table.board.paid subject item payload.consumeResource = s.table.board := by
    cases payload.consumeResource with
    | false => rfl
    | true => exact Board.paid_consume stands affords
  have listed : target < (s.table.board.paid subject item payload.consumeResource).roster.length := by
    rw [Board.length_paid]
    exact orderly.rostered target held
  obtain ⟨slots, pools, user⟩ := Board.seen_paid paid subject
  obtain ⟨slots', pools', victim⟩ := Board.seen_paid paid target
  have nonneg : 0 ≤ ((s.table.board.paid subject item payload.consumeResource).token target).hp := by
    rw [victim]
    exact Int.le_of_lt (of_decide_eq_true alive)
  obtain ⟨works, hurt⟩ := Table.of_resolveAttack_eq_ok resolved rfl listed nonneg
  dsimp only at works
  rw [user, victim] at works
  exact ⟨table, rfl, item, target, _, usable, found, paid, works.unpaid, hurt⟩

/-- A staff with a level, a pool and few uses, which rolls to hit. -/
def staff : Item :=
  { id := "staff", name := "Staff", uses := some 2, level := 1, consumeTarget := some "ki",
    attackBonus := some 5, damage := some "1d6+3" }

/-- A monk with the staff and an orc beside. -/
def sparringGround : Board :=
  ((({ scene := { cell := 5 } } : Board).addToken
    { id := "monk", name := "Monk", disposition := .friendly,
      spellSlots := [(1, 2)], resources := [("ki", 3)] }).addToken
    { id := "orc", name := "Orc", position := ⟨1, 0⟩, hp := 30, maxHp := 30 }).addItem staff
      (some "monk")

/-- The dice will show a twenty, a four and a five. -/
def sparring : Session where
  table := { board := sparringGround, dice := { source := .listed [20, 4, 5] } }

/-- What comes of the blow with the staff. -/
def struck : Outcome :=
  { success := true, kind := .attack, hit := some true, damage := some 12, critical := some true,
    message := "Monk critically hit Orc with Staff for 12 damage" }

/-- The blow. -/
def blow : AttackPayload :=
  { itemId := some "staff", targetId := some "orc" }

/-- Twice the die and once the modifier: the monk hits for twelve. -/
theorem attacks_leave_struck :
    sparring.table.board.IsOrderly ∧ sparring.host.usesWorkflow = false ∧
      struck.success = true ∧
      sparring.playAttack 0 blow = ((sparring.playAttack 0 blow).1, .done (.ok struck)) ∧
      ∃ table, (sparring.playAttack 0 blow).1 = sparring.withTable table ∧
        sparring.Aftermath 0 blow struck table := by
  have played : sparring.playAttack 0 blow =
      ((sparring.playAttack 0 blow).1, .done (.ok struck)) := by
    rfl
  have orderly : sparring.table.board.IsOrderly :=
    (((Board.IsOrderly.empty 5).addToken _).addToken _).addItem _ _
  exact ⟨orderly, rfl, rfl, played, attacks_leave orderly rfl played rfl⟩

end Session
end TurnScript
