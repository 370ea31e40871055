import TurnScript.Proofs.Play.Bounds

/-!
# Outcomes of the standard rules

An outcome has a flag for success, a kind, and parts that only some kinds have, so there are many
outcomes that mean nothing. The standard rules make none of them, at any of the places where a use
can end: it is refused, a mishap overtakes it, it is interrupted, or it is resolved. A use that is
held comes to such an end as well, in whatever state the session is when it is taken up again.
-/

namespace TurnScript

/-- An outcome that is well formed. It is a failure exactly if its kind says so, and exactly if it
has a kind of error. An attack has hit or missed and has done some damage; if it was resolved by a
saving throw it has hit whom the throw has not saved, and if by a roll a miss does none. Nothing
else has a saving throw. -/
structure Outcome.IsProper (outcome : Outcome) : Prop where
  failed_iff_error : outcome.success = false ↔ outcome.kind = .error
  failed_iff_errorKind : outcome.success = false ↔ outcome.errorKind.isSome = true
  attack : outcome.kind = .attack → outcome.success = true ∧
    ∃ hit damage, outcome.hit = some hit ∧ outcome.damage = some damage ∧ 0 ≤ damage ∧
      (∀ saved, outcome.saved = some saved → hit = !saved) ∧
      (outcome.saved = none → hit = false → damage = 0)
  saved : outcome.saved.isSome = true → outcome.kind = .attack

/-- Whatever the action is called, its outcome is well formed. -/
def Played.IsProper (played : Played) : Prop :=
  ∀ name, (Outcome.ofUse name played).IsProper

/-! ## Simple outcomes -/

theorem Outcome.isProper_failure (errorKind : ErrorKind) (message : String) :
    (failure errorKind message).IsProper := by
  constructor <;> simp [failure]

/-- A success that is no attack. -/
theorem Outcome.isProper_success {outcome : Outcome} (success : outcome.success = true)
    (unfailed : outcome.kind ≠ .error) (peaceful : outcome.kind ≠ .attack)
    (noError : outcome.errorKind = none) (unsaved : outcome.saved = none) :
    outcome.IsProper := by
  constructor <;> simp [success, unfailed, peaceful, noError, unsaved]

namespace Played

theorem isProper_ok {outcome : Outcome} (proper : outcome.IsProper) :
    IsProper (.ok outcome) :=
  fun _ => proper

/-- Whatever mishap there is, the outcome says that the use has failed. -/
theorem isProper_error (mishap : Mishap) : IsProper (.error mishap) := by
  intro name
  cases mishap <;> exact Outcome.isProper_failure _ _

end Played

namespace Table

variable {table : Table}

/-- A use can be closed with its outcome, or not at all. -/
theorem isProper_conclude {outcome : Outcome} (proper : outcome.IsProper) (source : String)
    (figures : List Int) : (table.conclude source figures outcome).1.IsProper := by
  unfold conclude
  split
  · exact Played.isProper_ok proper
  · exact Played.isProper_error _

/-! ## Attacks -/

theorem applyDamage_nonneg (subject target : TokenRef) (formula : String) (critical halve : Bool)
    {damage : Int}
    (done : (table.applyDamage subject target formula critical halve).1 = .ok damage) :
    0 ≤ damage := by
  unfold applyDamage at done
  dsimp only at done
  split at done
  · cases done
  · next total _ =>
    have full : 0 ≤ max total 0 := Int.le_max_right _ _
    obtain rfl := Except.ok.inj done
    split
    · exact Int.ediv_nonneg full (by decide)
    · exact full

/-- Damage is never negative, and where none is to be done it is nil. -/
theorem damageOf_fits (subject : TokenRef) (attack : ReadyAttack) (does critical halve : Bool)
    {damage : Int} (done : (table.damageOf subject attack does critical halve).1 = .ok damage) :
    0 ≤ damage ∧ (does = false → damage = 0) := by
  unfold damageOf at done
  split at done
  · obtain rfl := Except.ok.inj done
    exact ⟨Int.le_refl 0, fun _ => rfl⟩
  · next formula doing =>
    refine ⟨applyDamage_nonneg subject attack.target formula critical halve done, ?_⟩
    rintro rfl
    cases doing

/-- What follows the roll of damage may count on it that the damage fits. -/
theorem isProper_damage {subject : TokenRef} {attack : ReadyAttack} {does critical halve : Bool}
    {close : Int → Table → Played × Table}
    (closes : ∀ damage hurt, 0 ≤ damage → (does = false → damage = 0) →
      (close damage hurt).1.IsProper) :
    (match table.damageOf subject attack does critical halve with
      | (.error mishap, table) => ((.error mishap, table) : Played × Table)
      | (.ok damage, table) => close damage table).1.IsProper := by
  have fits : ∀ damage, (table.damageOf subject attack does critical halve).1 = .ok damage →
      0 ≤ damage ∧ (does = false → damage = 0) :=
    fun _ => damageOf_fits subject attack does critical halve
  cases done : table.damageOf subject attack does critical halve with
  | mk damage hurt =>
    rw [done] at fits
    cases damage with
    | error mishap => exact Played.isProper_error mishap
    | ok damage => exact closes damage hurt (fits damage rfl).1 (fits damage rfl).2

/-- An attack that is resolved by a roll has hit or missed. -/
theorem isProper_resolveRoll (table : Table) (subject : TokenRef) (attack : ReadyAttack)
    (bonus : Int) (override : Option Bool) :
    (table.resolveRoll subject attack bonus override).1.IsProper := by
  unfold resolveRoll
  dsimp only
  split
  · exact Played.isProper_error _
  · refine isProper_damage fun damage hurt nonneg harmless => ?_
    refine isProper_conclude ⟨by simp, by simp, ?_, by simp⟩ _ _
    intro _
    exact ⟨rfl, _, damage, rfl, rfl, nonneg, by simp, fun _ => harmless⟩

theorem isProper_concludeSave (table : Table) (attack : ReadyAttack) (dc : Int) (saved : Bool)
    {damage : Int} (nonneg : 0 ≤ damage) :
    (table.concludeSave attack dc saved damage).1.IsProper := by
  refine isProper_conclude ⟨by simp, by simp, ?_, by simp⟩ _ _
  intro _
  exact ⟨rfl, !saved, damage, rfl, rfl, nonneg, by simp, by simp⟩

/-- An attack that is resolved by a saving throw has hit whom the throw has not saved. -/
theorem isProper_resolveSave (table : Table) (subject : TokenRef) (attack : ReadyAttack)
    (dc : Int) : (table.resolveSave subject attack dc).1.IsProper := by
  unfold resolveSave
  split
  · exact Played.isProper_error _
  · exact isProper_damage fun _ hurt nonneg _ => hurt.isProper_concludeSave attack dc _ nonneg

theorem isProper_resolveAttack (table : Table) (subject : TokenRef) (attack : ReadyAttack)
    (payload : AttackPayload) : (table.resolveAttack subject attack payload).1.IsProper := by
  unfold resolveAttack
  dsimp only
  split
  · exact isProper_resolveRoll _ subject attack _ _
  · exact isProper_resolveSave _ subject attack _
  · exact isProper_conclude (Outcome.isProper_success rfl (by simp) (by simp) rfl rfl) _ _

/-! ## Items -/

theorem isProper_resolveItem (table : Table) (subject : TokenRef) (item : Item) :
    (table.resolveItem subject item).1.IsProper := by
  unfold resolveItem
  dsimp only
  split
  · exact isProper_conclude (Outcome.isProper_success rfl (by simp) (by simp) rfl rfl) _ _
  · split
    · exact Played.isProper_error _
    · exact isProper_conclude (Outcome.isProper_success rfl (by simp) (by simp) rfl rfl) _ _

end Table

/-! ## Movements -/

theorem Outcome.isProper_moved (goal : Position) : (moved goal).IsProper :=
  isProper_success rfl (by simp [moved]) (by simp [moved]) rfl rfl

theorem Outcome.isProper_interrupted (square : Position) : (interrupted square).IsProper :=
  isProper_success rfl (by simp [interrupted]) (by simp [interrupted]) rfl rfl

namespace Board

theorem isProper_tooFar (length most : Int) : (tooFar length most).IsProper := by
  unfold tooFar
  split
  · exact Played.isProper_ok (Outcome.isProper_failure _ _)
  · exact Played.isProper_error _

/-- A movement that is refused has failed. -/
theorem isProper_of_planMovement {b : Board} {subject : TokenRef} {payload : MovementPayload}
    {reveal : Bool} {defaultSpeed : Int} {played : Played}
    (refused : b.planMovement subject payload reveal defaultSpeed = .error played) :
    played.IsProper := by
  unfold planMovement at refused
  split at refused
  · cases refused
    exact Played.isProper_ok (Outcome.isProper_failure _ _)
  · next goal _ =>
    dsimp only at refused
    generalize (if (payload.target == .waypoint && decide (1 < payload.waypoints.length)) = true
      then payload.waypoints.drop 1 else [goal]) = squares at refused
    split at refused
    · cases refused
      exact isProper_tooFar _ _
    · cases refused

end Board

/-! ## Uses -/

namespace Session

/-- However the session is when a use is taken up, the use comes to its end, and what it comes to
has a property. -/
inductive Ends (P : Played → Prop) : Session × Progress → Prop where
  | done {s : Session} {result : Played} (holds : P result) : Ends P (s, .done result)
  | held {s : Session} {call : Call}
      (later : ∀ (next : Session) (rested unpaced : Bool),
        Ends P (next.resume rested unpaced call)) :
      Ends P (s, .held call)

/-- The standard rules resolve all that is played. -/
structure IsBuiltIn (s : Session) : Prop extends s.IsStandard where
  movement : s.host.movement ≠ .cued

variable {s : Session}

theorem ends_ok {outcome : Outcome} (proper : outcome.IsProper) :
    Ends Played.IsProper (s, .done (.ok outcome)) :=
  .done (Played.isProper_ok proper)

theorem ends_failure (errorKind : ErrorKind) (message : String) :
    Ends Played.IsProper (s, .done (.ok (.failure errorKind message))) :=
  ends_ok (Outcome.isProper_failure errorKind message)

theorem ends_playAttack (builtIn : s.host.usesWorkflow = false) (subject : TokenRef)
    (payload : AttackPayload) : Ends Played.IsProper (s.playAttack subject payload) := by
  unfold playAttack Board.prepareAttack
  cases usable : s.table.board.usableItem subject payload.itemId with
  | error outcome =>
    obtain ⟨kind, message, rfl, _⟩ := failure_of_usableItem usable
    exact ends_failure kind message
  | ok item =>
    dsimp only
    cases s.table.board.findTarget subject payload s.host.reveals with
    | none => exact ends_failure _ _
    | some target =>
      simp only [builtIn, Bool.false_eq_true, if_false]
      exact .done (Table.isProper_resolveAttack _ _ _ _)

theorem ends_playItem (builtIn : s.host.usesWorkflow = false) (subject : TokenRef)
    (payload : ItemPayload) : Ends Played.IsProper (s.playItem subject payload) := by
  unfold playItem
  cases usable : s.table.board.usableItem subject payload.itemId with
  | error outcome =>
    obtain ⟨kind, message, rfl, _⟩ := failure_of_usableItem usable
    exact ends_failure kind message
  | ok item =>
    simp only [builtIn, Bool.false_eq_true, if_false]
    exact .done (Table.isProper_resolveItem _ _ _)

/-- A walk has one square less ahead each time it is taken up, so it comes to its end. -/
theorem ends_walkOn (s : Session) (mover : TokenRef) (goal : Position) (unpaced : Bool)
    (ahead : List Position) : Ends Played.IsProper (s.walkOn mover goal unpaced ahead) := by
  induction ahead generalizing s unpaced with
  | nil => exact ends_ok (Outcome.isProper_moved goal)
  | cons square ahead inductionHypothesis =>
    unfold walkOn
    dsimp only
    split
    · exact .done (Played.isProper_error _)
    · split
      · exact ends_ok (Outcome.isProper_interrupted square)
      · apply Ends.held
        intro next rested unpaced
        cases rested with
        | true => exact inductionHypothesis next unpaced
        | false => exact ends_ok (Outcome.isProper_interrupted square)

theorem ends_playMovement (s : Session) (subject : TokenRef) (payload : MovementPayload)
    (unpaced : Bool) : Ends Played.IsProper (s.playMovement subject payload unpaced) := by
  unfold playMovement
  split
  · next refused => exact .done (Board.isProper_of_planMovement refused)
  · split
    · exact ends_walkOn s subject _ unpaced _
    · exact ends_walkOn _ subject _ unpaced []

/-- An action is played by the one who plays its kind, or else it ends at once: there is no such
player, the data cannot be read, or there is nothing to play. -/
theorem dispatchBy_induction {motive : Session × Progress → Prop} (action : Action)
    {move : MovementPayload → Session × Progress} {attack : AttackPayload → Session × Progress}
    {use : ItemPayload → Session × Progress}
    (atOnce : ∀ result : Played, result.IsProper → motive (s, .done result))
    (moves : ∀ payload, motive (move payload)) (attacks : ∀ payload, motive (attack payload))
    (uses : ∀ payload, motive (use payload)) : motive (s.dispatchBy action move attack use) := by
  have played : ∀ {π : Type} (part : Part) (player : Player) (read : Fields → Record.Checked π)
      (play : π → Session × Progress), (∀ payload, motive (play payload)) →
        motive (s.playAs part player action read play) := by
    intro π part player read play plays
    unfold playAs
    split
    · exact atOnce _ (Played.isProper_ok (Outcome.isProper_failure _ _))
    · split
      · exact atOnce _ (Played.isProper_ok (Outcome.isProper_failure _ _))
      · exact plays _
  unfold dispatchBy
  cases action.kind with
  | movement => exact played _ _ _ _ moves
  | attack | spell | bonusAction | reaction => exact played _ _ _ _ attacks
  | item => exact played _ _ _ _ uses
  | endTurn =>
    exact atOnce _ (Played.isProper_ok (Outcome.isProper_success rfl (by simp) (by simp) rfl rfl))
  | other name => exact atOnce _ (Played.isProper_ok (Outcome.isProper_failure _ _))

/-- A dispatch comes to its end, and its outcome is well formed, whatever the action and its data,
the table and the dice are, and whoever of the standard players is there. -/
theorem ends_dispatch (builtIn : s.IsBuiltIn) (subject : TokenRef) (action : Action)
    (unpaced : Bool) : Ends Played.IsProper (s.dispatch subject action unpaced) := by
  apply dispatchBy_induction action
  · exact fun _ proper => .done proper
  · intro payload
    rw [if_neg builtIn.movement]
    exact s.ends_playMovement subject payload unpaced
  · intro payload
    rw [if_neg builtIn.attack]
    exact ends_playAttack builtIn.builtIn subject payload
  · intro payload
    rw [if_neg builtIn.item]
    exact ends_playItem builtIn.builtIn subject payload

end Session

/-! ## Uses of nobody -/

namespace Item

/-- What keeps nobody from using an item is a failure or a mishap. -/
theorem isProper_unusableByNobody {item : Item} {played : Played}
    (unusable : item.unusableByNobody? = some played) : played.IsProper := by
  unfold unusableByNobody? at unusable
  split at unusable
  · obtain rfl := Option.some.inj unusable
    exact Played.isProper_ok (Outcome.isProper_failure _ _)
  · split at unusable
    · obtain rfl := Option.some.inj unusable
      exact Played.isProper_error _
    · split at unusable
      · obtain rfl := Option.some.inj unusable
        exact Played.isProper_error _
      · cases unusable

end Item

namespace Board

theorem isProper_findItem {b : Board} {itemId : Option String} {outcome : Outcome}
    (missing : b.findItem itemId = .error outcome) : outcome.IsProper := by
  unfold findItem at missing
  split at missing
  · obtain rfl := Except.error.inj missing
    exact Outcome.isProper_failure _ _
  · split at missing
    · obtain rfl := Except.error.inj missing
      exact Outcome.isProper_failure _ _
    · cases missing

theorem isProper_itemForNobody {b : Board} {itemId : Option String} {played : Played}
    (refused : b.itemForNobody itemId = .error played) : played.IsProper := by
  unfold itemForNobody at refused
  split at refused
  · next missing =>
    obtain rfl := Except.error.inj refused
    exact Played.isProper_ok (isProper_findItem missing)
  · split at refused
    · next unusable =>
      obtain rfl := Except.error.inj refused
      exact Item.isProper_unusableByNobody unusable
    · cases refused

end Board

namespace Table

theorem isProper_resolveForNobody (table : Table) (attack : ReadyAttack)
    (payload : AttackPayload) : (table.resolveForNobody attack payload).1.IsProper := by
  unfold resolveForNobody
  dsimp only
  split
  · unfold rollForNobody
    split
    · exact Played.isProper_error _
    · dsimp only
      split <;> exact Played.isProper_error _
  · unfold saveForNobody
    split
    · exact Played.isProper_error _
    · split
      · exact Played.isProper_error _
      · exact isProper_concludeSave _ attack _ _ (Int.le_refl 0)
  · exact Played.isProper_error _

theorem isProper_attackForNobody (table : Table) (payload : AttackPayload) :
    (table.attackForNobody false payload).1.IsProper := by
  unfold attackForNobody
  split
  · next refused => exact Board.isProper_itemForNobody refused
  · split
    · exact Played.isProper_error _
    · exact Played.isProper_ok (Outcome.isProper_failure _ _)
    · exact isProper_resolveForNobody _ _ _

theorem isProper_useForNobody (table : Table) (payload : ItemPayload) :
    (table.useForNobody false payload).1.IsProper := by
  unfold useForNobody
  split
  · next refused => exact Board.isProper_itemForNobody refused
  · exact Played.isProper_error _

theorem isProper_moveForNobody (table : Table) (payload : MovementPayload) :
    (table.moveForNobody payload).1.IsProper := by
  unfold moveForNobody
  split
  · exact Played.isProper_error _
  · exact Played.isProper_ok (Outcome.isProper_failure _ _)
  · exact Played.isProper_error _

end Table

namespace Session

variable {s : Session}

/-- Nobody is held: a dispatch for nobody is answered at once, by an outcome that is well formed. -/
theorem exists_dispatchForNobody (builtIn : s.IsBuiltIn) (action : Action) :
    ∃ outcome, (s.dispatchForNobody action).2 = .over (.outcome outcome) ∧ outcome.IsProper := by
  have ended : ∃ result, (s.dispatchBy action
      (s.playForNobody s.host.movement s.table.moveForNobody)
      (s.playForNobody s.host.attack (s.table.attackForNobody s.host.usesWorkflow))
      (s.playForNobody s.host.item (s.table.useForNobody s.host.usesWorkflow))).2 = .done result ∧
        result.IsProper := by
    rw [builtIn.builtIn]
    apply dispatchBy_induction
      (motive := fun use => ∃ result, use.2 = .done result ∧ result.IsProper)
    · exact fun result proper => ⟨result, rfl, proper⟩
    · intro payload
      rw [playForNobody, if_neg builtIn.movement]
      exact ⟨_, rfl, s.table.isProper_moveForNobody payload⟩
    · intro payload
      rw [playForNobody, if_neg builtIn.attack]
      exact ⟨_, rfl, s.table.isProper_attackForNobody payload⟩
    · intro payload
      rw [playForNobody, if_neg builtIn.item]
      exact ⟨_, rfl, s.table.isProper_useForNobody payload⟩
  obtain ⟨result, done, proper⟩ := ended
  refine ⟨_, ?_, proper action.name⟩
  unfold dispatchForNobody flowOfUse
  split
  · next held =>
    rw [held] at done
    cases done
  · next finished =>
    rw [finished] at done
    cases done
    rfl

end Session
end TurnScript
