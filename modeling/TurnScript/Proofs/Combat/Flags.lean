import TurnScript.Proofs.Combat.Exclusion

/-!
# Flags of those who are rolled for

Only a combatant that is flagged and may be driven comes into a batch, for a batch reads the flags
when it begins. It does not read them again after a rest, though it looks again whether a token has
got an initiative. So a token whose flag is taken away while it is ahead of a batch that rests is
rolled for all the same. As long as nobody ahead loses the flag or gets out of hand, every roll goes
to a combatant that waits for one when it is made.
-/

namespace TurnScript

namespace Combat

variable {c : Combat} {first second : Table} {rolls : List Roll}

/-- Whether a token may be rolled for: it is flagged and may be driven. -/
def mayRoll (c : Combat) (token : Token) : Bool :=
  token.autoInitiative && token.isAmong c.owned

theorem awaitsRoll_eq (c : Combat) (token : Token) :
    c.awaitsRoll token = (token.initiative.isNone && c.mayRoll token) :=
  Bool.and_assoc _ _ _

/-- Rolls touch neither flags nor names. -/
theorem mayRoll_of_rollsTo (leads : first.RollsTo rolls second) (ref : TokenRef) :
    c.mayRoll (second.token ref) = c.mayRoll (first.token ref) := by
  rcases leads.keeps ref with same | ⟨-, total, rolled⟩
  · rw [same]
  · rw [rolled]
    rfl

end Combat

/-! ## Tables with other flags -/

namespace Table

/-- A table that differs from another one in nothing that a batch reads, but may differ in flags. -/
structure SameButFlags (a b : Table) : Prop where
  dice : b.dice = a.dice
  roster : b.board.roster.length = a.board.roster.length
  token : ∀ ref, ∃ flagged, b.token ref = { a.token ref with autoInitiative := flagged }

variable {a b : Table}

theorem SameButFlags.initiative (same : a.SameButFlags b) (ref : TokenRef) :
    (b.token ref).initiative = (a.token ref).initiative := by
  obtain ⟨flagged, token⟩ := same.token ref
  rw [token]

theorem SameButFlags.score? (same : a.SameButFlags b) (ref : TokenRef) :
    (b.token ref).score? .dexterity = (a.token ref).score? .dexterity := by
  obtain ⟨flagged, token⟩ := same.token ref
  rw [token]
  rfl

theorem SameButFlags.setInitiative (same : a.SameButFlags b) (dice : Dice) (ref : TokenRef)
    (total : Int) : (Combat.setInitiative { a with dice } ref total).SameButFlags
      (Combat.setInitiative { b with dice } ref total) := by
  refine ⟨rfl, ?_, fun other => ?_⟩
  · rw [length_roster_setInitiative, length_roster_setInitiative]
    exact same.roster
  obtain ⟨flagged, token⟩ := same.token other
  refine ⟨flagged, ?_⟩
  rw [Combat.token_setInitiative_eq, Combat.token_setInitiative_eq]
  simp only [same.roster]
  split
  · exact congrArg (fun t => { t with initiative := some total }) token
  · exact token

theorem sameButFlags_toggle (table : Table) (ref : TokenRef) :
    table.SameButFlags (Combat.toggle table ref).2 := by
  refine ⟨rfl, by simp [Combat.toggle, Table.change, Table.remark, Board.change], fun other => ?_⟩
  change ∃ flagged, (table.board.change ref _).token other = _
  rw [Board.token_change]
  split
  · exact ⟨_, rfl⟩
  · exact ⟨(table.token other).autoInitiative, rfl⟩

end Table

namespace Combat

variable {a b : Table}

/-- A batch that goes on does not read flags. -/
theorem rollAhead_sameButFlags (delay : Int) (same : a.SameButFlags b) (ahead : List TokenRef)
    (rolled : Nat) :
    (rollAhead delay b ahead rolled).1 = (rollAhead delay a ahead rolled).1 ∧
      (rollAhead delay a ahead rolled).2.SameButFlags (rollAhead delay b ahead rolled).2 := by
  induction ahead generalizing a b rolled with
  | nil => exact ⟨rfl, same⟩
  | cons ref ahead inductionHypothesis =>
    simp only [rollAhead, same.initiative ref, same.score? ref, same.dice]
    split
    · exact inductionHypothesis same rolled
    split
    · exact ⟨rfl, same⟩
    split
    · exact ⟨rfl, rfl, same.roster, same.token⟩
    next total dice _ =>
      have later := same.setInitiative dice ref total
      split
      · split
        · exact ⟨rfl, later⟩
        · exact ⟨rfl, later⟩
      · exact inductionHypothesis later (rolled + 1)

/-- Whatever flags have been set or taken away, a batch that goes on comes to the same and gives the
same initiatives. -/
theorem continueBatch_sameButFlags (c : Combat) (same : a.SameButFlags b) (ahead : List TokenRef)
    (rolled : Nat) :
    (c.continueBatch b ahead rolled).result = (c.continueBatch a ahead rolled).result ∧
      ∀ ref, ((c.continueBatch b ahead rolled).table.token ref).initiative =
        ((c.continueBatch a ahead rolled).table.token ref).initiative := by
  obtain ⟨result, later⟩ := rollAhead_sameButFlags c.rollDelay same ahead rolled
  refine ⟨by rw [result_continueBatch, result_continueBatch, result], fun ref => ?_⟩
  rw [(table_continueBatch c b ahead rolled).token_of_not_mem List.not_mem_nil,
    (table_continueBatch c a ahead rolled).token_of_not_mem List.not_mem_nil]
  exact later.initiative ref

end Combat

namespace Melee

section

variable {m start : Melee} {incident : Incident} {errand : Errand}
  {step : Combat.Step Combat.Stage} {early history : List Incident} {r : Resting}
  {rolls : List Combat.Roll}

/-! ## The party -/

theorem combatants_mustered (m : Melee) (incident : Incident) :
    m.combat.combatants ⊆ (m.mustered incident).combatants := by
  cases incident with
  | join ref => exact List.subset_append_left _ _
  | roll | start | next | rested _ | disturbed _ => exact List.Subset.refl _

/-- Nobody leaves a combat. -/
theorem combatants_effect (m : Melee) (incident : Incident) :
    m.combat.combatants ⊆ (m.effect incident).combat.combatants := by
  cases done : m.piece? incident with
  | none => cases incident <;> simp [effect, done]
  | some piece =>
    obtain ⟨errand, step⟩ := piece
    rw [effect_of_piece? done]
    have reorders := (does_of_piece? done).reorders
    exact List.Subset.trans (combatants_mustered m incident) reorders.perm.symm.subset

/-- Who may be driven is settled for good. -/
theorem owned_effect (m : Melee) (incident : Incident) :
    (m.effect incident).combat.owned = m.combat.owned := by
  cases done : m.piece? incident with
  | none => cases incident <;> simp [effect, done]
  | some piece =>
    obtain ⟨errand, step⟩ := piece
    rw [effect_of_piece? done]
    refine (does_of_piece? done).reorders.owned.trans ?_
    cases incident <;> rfl

theorem owned_after (start : Melee) (history : List Incident) :
    (start.after history).combat.owned = start.combat.owned := by
  induction history using List.reverseRecOn with
  | nil => rfl
  | append_singleton history incident inductionHypothesis =>
    rw [after_concat, owned_effect, inductionHypothesis]

theorem awaitsRoll_after (start : Melee) (history : List Incident) :
    (start.after history).combat.awaitsRoll = start.combat.awaitsRoll := by
  funext token
  simp only [Combat.awaitsRoll, owned_after]

/-! ## Those ahead -/

/-- Whoever is ahead of a batch waited for a roll before the batch began. -/
theorem Tally.waited (tally : start.Tally early history r rolls) :
    ∀ ref ∈ r.ahead, start.combat.awaitsRoll ((start.after early).table.token ref) = true := by
  induction tally with
  | begun done leads waits goes =>
    intro ref ahead
    have waiting := (waits ref (goes.suffix.subset ahead)).2
    rw [awaitsRoll_after] at waiting
    rcases leads.keeps ref with same | ⟨-, total, rolled⟩
    · rwa [same] at waiting
    · -- Who has been rolled for waits no longer.
      rw [rolled] at waiting
      cases waiting
  | resumed tally found goes inductionHypothesis =>
    exact fun ref ahead => inductionHypothesis ref (goes.suffix.subset ahead)
  | kept tally rests inductionHypothesis => exact inductionHypothesis

/-- Whoever is ahead of a batch is a combatant. -/
theorem Tally.listed (tally : start.Tally early history r rolls) :
    ∀ ref ∈ r.ahead, ref ∈ (start.after history).combat.combatants := by
  induction tally with
  | begun done leads waits goes =>
    intro ref ahead
    rw [after_concat, effect_of_piece? done]
    exact (waits ref (goes.suffix.subset ahead)).1
  | resumed tally found goes inductionHypothesis =>
    intro ref ahead
    rw [after_concat]
    exact combatants_effect _ _ (inductionHypothesis ref (goes.suffix.subset ahead))
  | kept tally rests inductionHypothesis =>
    intro ref ahead
    rw [after_concat]
    exact combatants_effect _ _ (inductionHypothesis ref ahead)

theorem exists_resting_of_ahead {ref : TokenRef} (ahead : ref ∈ m.ahead incident) :
    ∃ r ∈ m.resting, ref ∈ r.ahead := by
  cases incident with
  | rested place =>
    rw [Melee.ahead] at ahead
    cases found : m.resting[place]? with
    | none =>
      rw [found] at ahead
      cases ahead
    | some r =>
      rw [found] at ahead
      exact ⟨r, List.mem_of_getElem? found, ahead⟩
  | roll | start | next | join _ | disturbed _ => cases ahead

/-! ## Flags that stay -/

/-- Whether nobody who is ahead of a batch loses the flag or gets out of hand when something
happens. -/
def sparesAhead (m : Melee) : Incident → Bool
  | .disturbed table => m.resting.all fun r => r.ahead.all fun ref =>
      m.combat.mayRoll (table.token ref)
  | .roll | .start | .next | .join _ | .rested _ => true

/-- Whether everyone ahead is flagged and may be driven. -/
def Guards (m : Melee) : Prop :=
  ∀ r ∈ m.resting, ∀ ref ∈ r.ahead, m.combat.mayRoll (m.table.token ref) = true

theorem mayRoll_effect (m : Melee) (incident : Incident) :
    (m.effect incident).combat.mayRoll = m.combat.mayRoll := by
  funext token
  simp only [Combat.mayRoll, owned_effect]

theorem mayRoll_mustered (m : Melee) (incident : Incident) :
    (m.mustered incident).mayRoll = m.combat.mayRoll := by
  cases incident <;> rfl

theorem guards_of_setsOut {c : Combat} {table : Table} {ahead : List TokenRef} {rolled : Nat}
    (setsOut : c.SetsOut table step) (rests : step.result = .resting ahead rolled) :
    ∀ ref ∈ ahead, c.mayRoll (step.table.token ref) = true := by
  cases setsOut with
  | passing reorders unmarked passes =>
    obtain rfl : _ = Combat.Stage.resting ahead rolled := rests
    cases passes
  | resting reorders still marked serves waits goes =>
    obtain ⟨rfl, rfl⟩ := Combat.Stage.resting.inj rests
    intro ref ahead
    have waiting := (waits ref (goes.suffix.subset ahead)).2
    rw [Combat.awaitsRoll_eq, Bool.and_eq_true] at waiting
    exact (Combat.mayRoll_of_rollsTo goes.rollsTo ref).trans waiting.2

/-- What happens leaves those ahead flagged, if nobody takes a flag away. -/
theorem Guards.effect (guards : m.Guards) (spares : m.sparesAhead incident = true) :
    (m.effect incident).Guards := by
  intro r rests ref ahead
  rw [mayRoll_effect]
  cases done : m.piece? incident with
  | none =>
    rw [resting_effect_of_none done] at rests
    have before := mem_resting_of_others rests
    cases incident with
    | disturbed table =>
      simp only [sparesAhead, List.all_eq_true] at spares
      exact spares r before ref ahead
    | rested place => simpa [Melee.effect, done] using guards r before ref ahead
    | roll | start | next | join _ => cases done
  | some piece =>
    obtain ⟨errand, step⟩ := piece
    have does := does_of_piece? done
    rcases rests_of_effect rests with other | ⟨after, last, rested⟩
    · obtain ⟨rolls, leads, -⟩ := does.exists_rolls
      rw [effect_of_piece? done]
      exact (Combat.mayRoll_of_rollsTo leads ref).trans
        (guards r (mem_resting_of_others other) ref ahead)
    obtain ⟨_, later, rolled⟩ := r
    obtain ⟨rfl, rfl⟩ := Prod.mk.inj (Option.some.inj (done.symm.trans rested))
    rw [effect_of_piece? done]
    cases does with
    | called call setsOut =>
      have guarded := guards_of_setsOut setsOut rfl ref ahead
      rwa [mayRoll_mustered] at guarded
    | taken found takesUp =>
      cases takesUp with
      | resting goes =>
        exact (Combat.mayRoll_of_rollsTo goes.rollsTo ref).trans
          (guards _ (List.mem_of_getElem? found) ref (goes.suffix.subset ahead))
      | ended goes setsOut => exact guards_of_setsOut setsOut rfl ref ahead

theorem Guards.after {history : List Incident} (guards : m.Guards)
    (spares : always sparesAhead m history = true) : (m.after history).Guards := by
  induction history generalizing m with
  | nil => exact guards
  | cons incident rest inductionHypothesis =>
    rw [always, Bool.and_eq_true] at spares
    exact inductionHypothesis (guards.effect spares.1) spares.2

end

/-- Whatever happens in whatever order, a roll goes to a combatant without initiative that is flagged
and may be driven, or to one that is ahead of the batch that is taken up. Such a one was flagged and
could be driven when the batch began, and a flag that is set or taken away since then makes no
difference to the batch. As long as nobody ahead loses the flag or gets out of hand, every roll goes
to a combatant that is flagged and may be driven at that moment. -/
theorem flags_are_read_when_a_batch_begins (c : Combat) (table : Table) (history : List Incident) :
    let start : Melee := { combat := c, table }
    let m := start.after history
    (∀ incident errand step, m.piece? incident = some (errand, step) →
      ∃ rolls, m.table.RollsTo rolls step.table ∧ ∀ roll ∈ rolls,
        roll.ref ∈ step.combat.combatants ∧ (roll.found.token roll.ref).initiative = none ∧
          (c.awaitsRoll (roll.found.token roll.ref) = true ∨ roll.ref ∈ m.ahead incident) ∧
          (always sparesAhead start history = true →
            c.awaitsRoll (roll.found.token roll.ref) = true)) ∧
      ∀ r ∈ m.resting,
        (∃ early rolls, start.Tally early history r rolls ∧
          ∀ ref ∈ r.ahead, c.awaitsRoll ((start.after early).table.token ref) = true) ∧
        ∀ ref, let toggled := (Combat.toggle m.table ref).2
          (m.combat.continueBatch toggled r.ahead r.rolled).result =
              (m.combat.continueBatch m.table r.ahead r.rolled).result ∧
            ∀ other,
              ((m.combat.continueBatch toggled r.ahead r.rolled).table.token other).initiative =
                ((m.combat.continueBatch m.table r.ahead r.rolled).table.token other).initiative := by
  intro start m
  have same : m.combat.awaitsRoll = c.awaitsRoll := awaitsRoll_after start history
  refine ⟨fun incident errand step done => ?_, fun r rests => ⟨?_, fun ref => ?_⟩⟩
  · have does := does_of_piece? done
    obtain ⟨rolls, leads, goes⟩ := does.exists_rolls
    refine ⟨rolls, leads, fun roll member => ?_⟩
    have lacks := leads.lacks roll member
    rcases goes roll member with ahead | ⟨listed, waits⟩
    · obtain ⟨r, rests, before⟩ := exists_resting_of_ahead ahead
      obtain ⟨early, made, tally⟩ := exists_tally start rfl history r rests
      have listed := combatants_mustered m incident (tally.listed roll.ref before)
      refine ⟨does.reorders.perm.mem_iff.mpr listed, lacks, .inr ahead, fun spares => ?_⟩
      have guards : m.Guards := Guards.after (fun r rests => by cases rests) spares
      rw [← same, Combat.awaitsRoll_eq, lacks, leads.found_eq roll member,
        guards r rests roll.ref before]
      rfl
    · rw [same] at waits
      exact ⟨listed, lacks, .inl waits, fun _ => waits⟩
  · obtain ⟨early, rolls, tally⟩ := exists_tally start rfl history r rests
    exact ⟨early, rolls, tally, tally.waited⟩
  · exact Combat.continueBatch_sameButFlags m.combat (Table.sameButFlags_toggle m.table ref) r.ahead
      r.rolled

/-- The table of the two combatants with the flag of the second one taken away, after the roll of the
first. -/
def unflagged : Table :=
  (Combat.toggle (duelists.after [.roll]).table 1).2

/-- The batch rolls for the second one as if the flag had stayed. If it does stay, both rolls go to
combatants that wait for them. -/
theorem flags_are_read_when_a_batch_begins_duel :
    let m := duelists.after [.roll]
    always sparesAhead duelists [.roll] = true ∧
      (∃ rolls, m.table.RollsTo rolls (m.combat.rested m.table .roll [1] 1).table ∧
        ∀ roll ∈ rolls, duelists.combat.awaitsRoll (roll.found.token roll.ref) = true) ∧
      (m.combat.continueBatch unflagged [1] 1).result = .finished 2 ∧
      ((m.combat.continueBatch unflagged [1] 1).table.token 1).initiative = some 10 := by
  intro m
  have spares : always sparesAhead duelists [.roll] = true := by decide +kernel
  obtain ⟨rolled, rests⟩ :=
    flags_are_read_when_a_batch_begins duelists.combat duelists.table [.roll]
  have first : m.resting[0]? = some ⟨.roll, [1], 1⟩ := by decide +kernel
  have done : m.piece? (.rested 0) = some (.roll, m.combat.rested m.table .roll [1] 1) := by
    rw [piece?, first]
    rfl
  obtain ⟨rolls, leads, waits⟩ := rolled (.rested 0) _ _ done
  obtain ⟨-, toggles⟩ := rests _ (List.mem_of_getElem? first)
  obtain ⟨result, initiative⟩ := toggles 1
  refine ⟨spares, ⟨rolls, leads, fun roll member => (waits roll member).2.2.2 spares⟩,
    result.trans (by decide +kernel), (initiative 1).trans (by decide +kernel)⟩

/-- A token is rolled for though its flag has been taken away before its roll. It does not keep that
it had no initiative. -/
theorem unflagged_is_rolled_for :
    let m := duelists.after [.roll, .disturbed unflagged]
    let later := m.effect (.rested 0)
    duelists.combat.rolling = false ∧ m.resting = [⟨.roll, [1], 1⟩] ∧
      (m.table.token 1).autoInitiative = false ∧ (m.table.token 1).initiative = none ∧
      (later.table.token 1).autoInitiative = false ∧ (later.table.token 1).initiative = some 10 := by
  decide +kernel

end Melee
end TurnScript
