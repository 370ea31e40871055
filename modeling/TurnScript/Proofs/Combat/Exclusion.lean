import TurnScript.Proofs.Combat.Pieces

/-!
# Exclusion of batches

In a melee any errand may begin a batch of rolls, and a batch rests between two rolls while others
act. The mark of the combat keeps batches apart: it stands exactly while one is under way, and then
no other begins. So the tally of a batch can be kept through the pieces of the one errand that rests
in it, and what the batch reports in the end is the number of rolls in its tally.
-/

namespace TurnScript

theorem Combat.Stage.resting?_eq_some {stage : Stage} {errand : Errand} {r : Resting}
    (rests : stage.resting? errand = some r) :
    r.errand = errand ∧ stage = .resting r.ahead r.rolled := by
  cases stage with
  | resting ahead rolled =>
    obtain rfl := Option.some.inj rests
    exact ⟨rfl, rfl⟩
  | announcing _ | ended _ | adrift => cases rests

theorem Combat.Stage.resting?_of_passes {stage : Stage} (passes : stage.isResting = false)
    (errand : Errand) : stage.resting? errand = none := by
  cases stage with
  | resting _ _ => cases passes
  | announcing _ | ended _ | adrift => rfl

/-- Whether an incident takes up an errand that rests. -/
def Incident.takesUp : Incident → Bool
  | .rested _ => true
  | .roll | .start | .next | .join _ | .disturbed _ => false

namespace Melee

/-- The combat in which an incident is dealt with: whoever joins is among the combatants then. -/
def mustered (m : Melee) : Incident → Combat
  | .join ref => { m.combat with combatants := m.combat.combatants ++ [ref] }
  | _ => m.combat

section

variable {m : Melee} {incident : Incident} {errand : Errand}
  {step : Combat.Step Combat.Stage}

/-! ## Pieces in a melee -/

/-- The tokens ahead of the batch that an incident takes up. -/
def ahead (m : Melee) : Incident → List TokenRef
  | .rested place => (m.resting[place]?).elim [] Resting.ahead
  | .roll | .start | .next | .join _ | .disturbed _ => []

/-- A piece of an errand in a melee: one that is called, or one that is taken up after a rest. -/
inductive Does (m : Melee) : Incident → Errand → Combat.Step Combat.Stage → Prop
  | called {incident : Incident} {errand : Errand} {step : Combat.Step Combat.Stage}
      (call : incident.takesUp = false) (setsOut : (m.mustered incident).SetsOut m.table step) :
      Does m incident errand step
  | taken {place : Nat} {r : Resting} {step : Combat.Step Combat.Stage}
      (found : m.resting[place]? = some r)
      (takesUp : m.combat.TakesUp m.table r.ahead r.rolled step) :
      Does m (.rested place) r.errand step

theorem does_of_piece? (done : m.piece? incident = some (errand, step)) :
    m.Does incident errand step := by
  cases incident with
  | roll =>
    obtain ⟨rfl, rfl⟩ := Prod.mk.inj (Option.some.inj done)
    exact .called rfl (Combat.setsOut_afterBatch .roll (Combat.begins_beginBatch _ _))
  | start =>
    obtain ⟨rfl, rfl⟩ := Prod.mk.inj (Option.some.inj done)
    exact .called rfl (Combat.setsOut_afterBatch .start (Combat.begins_beginBatch _ _))
  | next =>
    obtain ⟨rfl, rfl⟩ := Prod.mk.inj (Option.some.inj done)
    exact .called rfl (Combat.setsOut_next _ _)
  | join ref =>
    obtain ⟨rfl, rfl⟩ := Prod.mk.inj (Option.some.inj done)
    exact .called rfl (Combat.setsOut_join _ _ ref)
  | rested place =>
    obtain ⟨r, found, same⟩ := Option.map_eq_some_iff.mp done
    obtain ⟨rfl, rfl⟩ := Prod.mk.inj same
    exact .taken found (Combat.takesUp_rested _ _ _ _ _)
  | disturbed table => cases done

theorem awaitsRoll_mustered (m : Melee) (incident : Incident) :
    (m.mustered incident).awaitsRoll = m.combat.awaitsRoll := by
  cases incident <;> rfl

theorem rolling_mustered (m : Melee) (incident : Incident) :
    (m.mustered incident).rolling = m.combat.rolling := by
  cases incident <;> rfl

theorem Does.reorders (does : m.Does incident errand step) :
    (m.mustered incident).Reorders step.combat := by
  cases does with
  | called call setsOut => exact setsOut.reorders
  | taken found takesUp => exact takesUp.reorders

/-- A roll goes to a combatant that waits for one when it is made, or to a token that was ahead of
the batch that is taken up. -/
theorem Does.exists_rolls (does : m.Does incident errand step) :
    ∃ rolls, m.table.RollsTo rolls step.table ∧ ∀ roll ∈ rolls, roll.ref ∈ m.ahead incident ∨
      roll.ref ∈ step.combat.combatants ∧
        m.combat.awaitsRoll (roll.found.token roll.ref) = true := by
  have party := does.reorders.perm
  cases does with
  | called call setsOut =>
    obtain ⟨rolls, leads, waits⟩ := setsOut.exists_rolls
    rw [awaitsRoll_mustered] at waits
    exact ⟨rolls, leads, fun roll member =>
      .inr ⟨party.mem_iff.mpr (waits roll member).1, (waits roll member).2⟩⟩
  | taken found takesUp =>
    obtain ⟨rolls, leads, goes⟩ := takesUp.exists_rolls
    refine ⟨rolls, leads, fun roll member => ?_⟩
    rcases goes roll member with ahead | ⟨listed, waits⟩
    · refine .inl ?_
      rw [Melee.ahead, found]
      exact ahead
    · exact .inr ⟨party.mem_iff.mpr listed, waits⟩

theorem effect_of_piece? (done : m.piece? incident = some (errand, step)) :
    m.effect incident = m.settle (m.others incident) errand step := by
  simp only [effect, done]

theorem resting_effect_of_none (idle : m.piece? incident = none) :
    (m.effect incident).resting = m.others incident := by
  cases incident with
  | rested place =>
    have past : m.resting.length ≤ place :=
      List.getElem?_eq_none_iff.mp (Option.map_eq_none_iff.mp idle)
    simp only [effect, idle, others]
    exact (List.eraseIdx_of_length_le past).symm
  | disturbed table => rfl
  | roll | start | next | join ref => cases idle

theorem after_concat (m : Melee) (history : List Incident) (incident : Incident) :
    m.after (history ++ [incident]) = (m.after history).effect incident := by
  rw [after_append]
  rfl

theorem others_of_call (call : incident.takesUp = false) : m.others incident = m.resting := by
  cases incident with
  | rested place => cases call
  | roll | start | next | join _ | disturbed _ => rfl

/-! ## One batch at a time -/

/-- Batches are kept apart: none is under way, or one in which one errand rests. -/
inductive IsExclusive (m : Melee) : Prop
  | idle (still : m.combat.rolling = false) (nobody : m.resting = [])
  | busy (r : Resting) (rolling : m.combat.rolling = true) (alone : m.resting = [r])

/-- Whoever sets out begins no batch while one is under way. -/
theorem IsExclusive.settle {c : Combat} {table : Table} {others : List Resting}
    (apart : c.rolling = false ∧ others = [] ∨ c.rolling = true ∧ ∃ r, others = [r])
    (setsOut : c.SetsOut table step) : (m.settle others errand step).IsExclusive := by
  cases setsOut with
  | passing reorders unmarked passes serves =>
    have none := Combat.Stage.resting?_of_passes passes errand
    rcases apart with ⟨still, nobody⟩ | ⟨rolling, r, alone⟩
    · exact .idle (unmarked.trans still) (by simp [Melee.settle, none, nobody])
    · exact .busy r (unmarked.trans rolling) (by simp [Melee.settle, none, alone])
  | @resting _ _ _ _ _ _ ahead rolled reorders still marked serves waits goes =>
    rcases apart with ⟨-, nobody⟩ | ⟨rolling, -⟩
    · refine .busy ⟨errand, ahead, rolled⟩ marked ?_
      rw [nobody]
      rfl
    · rw [still] at rolling
      cases rolling

theorem IsExclusive.apart (exclusive : m.IsExclusive) :
    m.combat.rolling = false ∧ m.resting = [] ∨
      m.combat.rolling = true ∧ ∃ r, m.resting = [r] := by
  cases exclusive with
  | idle still nobody => exact .inl ⟨still, nobody⟩
  | busy r rolling alone => exact .inr ⟨rolling, r, alone⟩

/-- Whoever is taken up is the only one that rests. -/
theorem IsExclusive.alone (exclusive : m.IsExclusive) {place : Nat} {r : Resting}
    (found : m.resting[place]? = some r) :
    m.combat.rolling = true ∧ m.others (.rested place) = [] := by
  cases exclusive with
  | idle still nobody =>
    rw [nobody] at found
    cases found
  | busy other rolling alone =>
    rw [alone] at found
    obtain ⟨first, -⟩ := List.getElem?_eq_some_iff.mp found
    obtain rfl : place = 0 := Nat.lt_one_iff.mp first
    refine ⟨rolling, ?_⟩
    rw [others, alone]
    rfl

theorem IsExclusive.effect (exclusive : m.IsExclusive) (incident : Incident) :
    (m.effect incident).IsExclusive := by
  cases done : m.piece? incident with
  | none =>
    cases incident with
    | rested place => simpa [Melee.effect, done] using exclusive
    | disturbed table =>
      cases exclusive with
      | idle still nobody => exact .idle still nobody
      | busy r rolling alone => exact .busy r rolling alone
    | roll | start | next | join ref => cases done
  | some piece =>
    obtain ⟨errand, step⟩ := piece
    rw [effect_of_piece? done]
    cases does_of_piece? done with
    | called call setsOut =>
      rw [others_of_call call]
      refine .settle ?_ setsOut
      rw [rolling_mustered]
      exact exclusive.apart
    | taken found takesUp =>
      obtain ⟨rolling, nobody⟩ := exclusive.alone found
      rw [nobody]
      cases takesUp with
      | resting goes => exact .busy ⟨_, _, _⟩ rolling rfl
      | ended goes setsOut => exact .settle (.inl ⟨rfl, rfl⟩) setsOut

theorem IsExclusive.after (exclusive : m.IsExclusive) (history : List Incident) :
    (m.after history).IsExclusive := by
  induction history generalizing m with
  | nil => exact exclusive
  | cons incident rest inductionHypothesis => exact inductionHypothesis (exclusive.effect incident)

/-- What is called while a batch is under way rolls for nobody, and the batch goes on resting. -/
theorem declines_of_rolling (rolling : m.combat.rolling = true) (call : incident.takesUp = false)
    (done : m.piece? incident = some (errand, step)) :
    m.table.RollsTo [] step.table ∧ step.combat.rolling = true ∧
      (m.effect incident).resting = m.resting := by
  have marked : (m.mustered incident).rolling = true := (rolling_mustered m incident).trans rolling
  rw [effect_of_piece? done, others_of_call call]
  cases does_of_piece? done with
  | called _ setsOut =>
    cases setsOut with
    | passing reorders unmarked passes serves =>
      obtain rfl := serves.eq_nil marked
      refine ⟨serves.leads, unmarked.trans marked, ?_⟩
      simp [settle, Combat.Stage.resting?_of_passes passes]
    | resting reorders still =>
      rw [marked] at still
      cases still
  | taken => cases call

/-! ## Tallies -/

/-- The rolls made so far by the batch in which an errand rests at the end of a history. The batch
has begun in the incident that comes after the early part of it. -/
inductive Tally (start : Melee) (early : List Incident) :
    List Incident → Resting → List Combat.Roll → Prop
  | begun {incident : Incident} {errand : Errand} {after : Combat} {begun last : Table}
      {before rolls : List Combat.Roll} {waiting ahead : List TokenRef} {rolled : Nat}
      (done : (start.after early).piece? incident =
        some (errand, ⟨after, last, .resting ahead rolled⟩))
      (leads : (start.after early).table.RollsTo before begun)
      (waits : ∀ ref ∈ waiting, ref ∈ after.combatants ∧
        (start.after early).combat.awaitsRoll (begun.token ref) = true)
      (goes : Combat.Goes begun waiting 0 rolls (.paused ahead rolled, last)) :
      Tally start early (early ++ [incident]) ⟨errand, ahead, rolled⟩ rolls
  | resumed {history : List Incident} {place : Nat} {r : Resting} {last : Table}
      {rolls more : List Combat.Roll} {ahead : List TokenRef} {rolled : Nat}
      (tally : Tally start early history r rolls)
      (found : (start.after history).resting[place]? = some r)
      (goes : Combat.Goes (start.after history).table r.ahead r.rolled more
        (.paused ahead rolled, last)) :
      Tally start early (history ++ [.rested place]) ⟨r.errand, ahead, rolled⟩ (rolls ++ more)
  /-- Others act while the errand rests. -/
  | kept {history : List Incident} {incident : Incident} {r : Resting} {rolls : List Combat.Roll}
      (tally : Tally start early history r rolls)
      (rests : r ∈ (start.after history).others incident) :
      Tally start early (history ++ [incident]) r rolls

variable {start : Melee} {early history : List Incident} {r : Resting} {rolls : List Combat.Roll}

/-- A batch has counted the rolls in its tally. -/
theorem Tally.counts (tally : start.Tally early history r rolls) : r.rolled = rolls.length := by
  induction tally with
  | begun done leads waits goes => simpa using goes.counts rfl
  | resumed tally found goes inductionHypothesis =>
    rw [List.length_append, ← inductionHypothesis]
    exact goes.counts rfl
  | kept tally rests inductionHypothesis => exact inductionHypothesis

theorem mem_resting_of_others (rests : r ∈ m.others incident) : r ∈ m.resting := by
  cases incident with
  | rested place => exact List.mem_of_mem_eraseIdx rests
  | roll | start | next | join _ | disturbed _ => exact rests

/-- Whoever rests when something has happened has rested before, or rests in the batch in which the
piece has come to a pause. -/
theorem rests_of_effect (rests : r ∈ (m.effect incident).resting) :
    r ∈ m.others incident ∨ ∃ after last, m.piece? incident =
      some (r.errand, ⟨after, last, .resting r.ahead r.rolled⟩) := by
  cases done : m.piece? incident with
  | none => exact .inl (resting_effect_of_none done ▸ rests)
  | some piece =>
    obtain ⟨errand, step⟩ := piece
    rw [effect_of_piece? done, settle] at rests
    rcases List.mem_append.mp rests with other | new
    · exact .inl other
    · obtain ⟨rfl, stage⟩ := Combat.Stage.resting?_eq_some (Option.mem_toList.mp new)
      exact .inr ⟨step.combat, step.table, by rw [← stage]⟩

/-- Every errand that rests has a tally. -/
theorem exists_tally (start : Melee) (nobody : start.resting = []) (history : List Incident) :
    ∀ r ∈ (start.after history).resting, ∃ early rolls, start.Tally early history r rolls := by
  induction history using List.reverseRecOn with
  | nil =>
    intro r rests
    rw [after, List.foldl_nil, nobody] at rests
    cases rests
  | append_singleton history incident inductionHypothesis =>
    intro r rests
    rw [after_concat] at rests
    rcases rests_of_effect rests with other | ⟨after, last, done⟩
    · obtain ⟨early, rolls, tally⟩ := inductionHypothesis r (mem_resting_of_others other)
      exact ⟨early, rolls, tally.kept other⟩
    obtain ⟨errand, ahead, rolled⟩ := r
    cases does_of_piece? done with
    | called call setsOut =>
      cases setsOut with
      | passing reorders unmarked passes => cases passes
      | resting reorders still marked serves waits goes =>
        rw [awaitsRoll_mustered] at waits
        exact ⟨history, _, .begun done serves.leads (fun ref waiting =>
          ⟨reorders.perm.mem_iff.mpr (waits ref waiting).1, (waits ref waiting).2⟩) goes⟩
    | taken found takesUp =>
      cases takesUp with
      | resting goes =>
        obtain ⟨early, rolls, tally⟩ := inductionHypothesis _ (List.mem_of_getElem? found)
        exact ⟨early, _, tally.resumed found goes⟩
      | ended goes setsOut =>
        cases setsOut with
        | passing reorders unmarked passes => cases passes
        | resting reorders still marked serves waits later =>
          -- The batch that was taken up is over, and the errand rests in another one.
          exact ⟨history, _, .begun done (goes.rollsTo.trans serves.leads) (fun ref waiting =>
            ⟨reorders.perm.mem_iff.mpr (waits ref waiting).1, (waits ref waiting).2⟩) later⟩

end

/-- Whatever is called, taken up and changed in whatever order: at most one batch is under way, and
the mark stands exactly while one is. A batch that is called for meanwhile reports no rolls and
changes nothing, and no call disturbs the batch that is under way. A roll is made only for a token
that has no initiative at that moment, and whoever has one keeps it. A batch that is finished reports
exactly the rolls that it has made, at once or from one rest to the next. -/
theorem batches_exclude_each_other (c : Combat) (table : Table) (history : List Incident)
    (still : c.rolling = false) :
    let start : Melee := { combat := c, table }
    let m := start.after history
    (m.resting.length ≤ 1 ∧ (m.combat.rolling = true ↔ m.resting ≠ [])) ∧
      (m.combat.rolling = true →
        m.combat.beginBatch m.table = ⟨m.combat,
          m.table.remark "combat" .debug "Already rolling initiative, skipping", .finished 0⟩ ∧
        ∀ incident errand step, incident.takesUp = false →
          m.piece? incident = some (errand, step) → m.table.RollsTo [] step.table ∧
            step.combat.rolling = true ∧ (m.effect incident).resting = m.resting) ∧
      (∀ incident errand step, m.piece? incident = some (errand, step) →
        ∃ rolls, m.table.RollsTo rolls step.table ∧
          (∀ roll ∈ rolls, (roll.found.token roll.ref).initiative = none) ∧
          ∀ ref, (m.table.token ref).initiative ≠ none →
            step.table.token ref = m.table.token ref) ∧
      (∀ (caller : Combat) (begun : Table), ∃ rolls,
        begun.RollsTo rolls (caller.beginBatch begun).table ∧
        ∀ count, (caller.beginBatch begun).result = .finished count → count = rolls.length) ∧
      (∀ r ∈ m.resting, ∃ early rolls more, start.Tally early history r rolls ∧
        r.rolled = rolls.length ∧
        m.table.RollsTo more (m.combat.continueBatch m.table r.ahead r.rolled).table ∧
        ∀ count, (m.combat.continueBatch m.table r.ahead r.rolled).result = .finished count →
          count = (rolls ++ more).length) ∧
      ∀ batch count, (Combat.afterBatch .roll batch).result = .ended (.rolled count) ↔
        batch.result = .finished count := by
  intro start m
  have exclusive : m.IsExclusive := IsExclusive.after (.idle still rfl) history
  refine ⟨?_, fun rolling => ⟨Combat.beginBatch_of_rolling rolling _, ?_⟩, ?_,
    Combat.exists_rolls_beginBatch, ?_, fun batch count => Combat.rolled_afterBatch_iff⟩
  · cases exclusive with
    | idle still nobody => simp [still, nobody]
    | busy r rolling alone => simp [rolling, alone]
  · exact fun incident errand step call done => declines_of_rolling rolling call done
  · intro incident errand step done
    obtain ⟨rolls, leads, -⟩ := (does_of_piece? done).exists_rolls
    refine ⟨rolls, leads, leads.lacks, fun ref has => ?_⟩
    exact (leads.keeps ref).resolve_right fun rolled => has rolled.1
  · intro r rests
    obtain ⟨early, rolls, tally⟩ := exists_tally start rfl history r rests
    obtain ⟨more, leads, reports⟩ :=
      Combat.exists_rolls_continueBatch m.combat m.table r.ahead r.rolled
    refine ⟨early, rolls, more, tally, tally.counts, leads, fun count reported => ?_⟩
    rw [reports count reported, tally.counts, List.length_append]

/-- Two calls for rolls: the second one comes while the batch of the first rests after a roll. It
reports no rolls, and the first goes on and reports two. -/
theorem batches_exclude_each_other_duel :
    let m := duelists.after [.roll]
    duelists.combat.rolling = false ∧ m.combat.rolling = true ∧ m.resting.length ≤ 1 ∧
      (m.combat.beginBatch m.table).result = .finished 0 ∧
      (m.effect .roll).resting = m.resting ∧
      ∃ early rolls more, duelists.Tally early [.roll] ⟨.roll, [1], 1⟩ rolls ∧
        m.table.RollsTo more (m.combat.continueBatch m.table [1] 1).table ∧
        (m.combat.continueBatch m.table [1] 1).result = .finished 2 ∧ (rolls ++ more).length = 2 := by
  intro m
  obtain ⟨⟨single, -⟩, declines, -, -, tallies, -⟩ :=
    batches_exclude_each_other duelists.combat duelists.table [.roll] rfl
  have rolling : m.combat.rolling = true := by decide +kernel
  obtain ⟨refused, undisturbed⟩ := declines rolling
  have rests : ⟨.roll, [1], 1⟩ ∈ m.resting := by decide +kernel
  have reported : (m.combat.continueBatch m.table [1] 1).result = .finished 2 := by decide +kernel
  obtain ⟨early, rolls, more, tally, -, leads, reports⟩ := tallies _ rests
  refine ⟨rfl, rolling, single, ?_, (undisturbed .roll _ _ rfl rfl).2.2, early, rolls, more, tally,
    leads, reported, (reports 2 reported).symm⟩
  rw [show m.combat.beginBatch m.table = _ from refused]

end Melee
end TurnScript
