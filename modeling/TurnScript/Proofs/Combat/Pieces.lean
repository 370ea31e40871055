import TurnScript.Proofs.Combat.Rolls
import TurnScript.Proofs.Combat.Living

/-!
# Rolls of an errand

A piece of an errand can make rolls in several batches: it goes on with the batch that it rested in,
and where that is over it may begin others, one for each new round that it comes to. Here it is said
once what a piece rolls, for all errands. In a batch that it begins itself, every roll goes to a
combatant that waits for one when it is made. If it rests, it does so in the last of its batches.
-/

namespace TurnScript

namespace Combat

/-- Whether an errand rests between two rolls. -/
def Stage.isResting : Stage → Bool
  | .resting _ _ => true
  | _ => false

/-- A combat with the same combatants in any order. Which of them may be driven, and who is told of
turns, is as before. -/
structure Reorders (c after : Combat) : Prop where
  perm : after.combatants.Perm c.combatants
  owned : after.owned = c.owned
  listeners : after.listeners = c.listeners

/-- Rolls that a combat makes while no batch is under way, for combatants that wait for them. -/
structure Serves (c : Combat) (table : Table) (rolls : List Roll) (after : Table) : Prop where
  leads : table.RollsTo rolls after
  waits : ∀ roll ∈ rolls, c.rolling = false ∧ roll.ref ∈ c.combatants ∧
    c.awaitsRoll (roll.found.token roll.ref) = true

section

variable {c : Combat} {table between after : Table} {rolls more : List Roll} {batch : Step Batch}
  {step : Step Stage}

theorem Reorders.refl (c : Combat) : c.Reorders c := ⟨.refl _, rfl, rfl⟩

theorem Serves.of_nil (leads : table.RollsTo [] after) : c.Serves table [] after :=
  ⟨leads, fun _ member => absurd member List.not_mem_nil⟩

theorem Serves.trans (early : c.Serves table rolls between) (late : c.Serves between more after) :
    c.Serves table (rolls ++ more) after :=
  ⟨early.leads.trans late.leads, fun roll member =>
    (List.mem_append.mp member).elim (early.waits roll) (late.waits roll)⟩

theorem Serves.remarked (serves : c.Serves table rolls after) (source : String) (level : Level)
    (text : String) : c.Serves table rolls (after.remark source level text) := by
  simpa using serves.trans (.of_nil (.remarked after source level text))

/-- While a batch is under way, no other rolls are made. -/
theorem Serves.eq_nil (serves : c.Serves table rolls after) (rolling : c.rolling = true) :
    rolls = [] := by
  apply List.eq_nil_iff_forall_not_mem.mpr
  intro roll member
  have still := (serves.waits roll member).1
  rw [rolling] at still
  cases still

/-- A batch rolls for whoever was a candidate when it began, and still waits when its turn comes. -/
theorem Serves.of_goes {left : Batch × Table} (still : c.rolling = false)
    (goes : Goes table (c.candidates table) 0 rolls left) : c.Serves table rolls left.2 := by
  refine ⟨goes.rollsTo, fun roll member => ⟨still, ?_⟩⟩
  rw [goes.rollsTo.found_eq roll member]
  exact mem_candidates.mp (goes.within roll member)

/-! ## Batches that begin -/

/-- What a batch comes to when a combat begins it. While it is not paused, the mark that a batch is
under way is as before. -/
inductive Begins (c : Combat) (table : Table) : Step Batch → Prop
  | finished {rolls : List Roll} {after : Table} (serves : c.Serves table rolls after) :
      Begins c table ⟨c, after, .finished rolls.length⟩
  | failed {rolls : List Roll} {after : Table} (mishap : Mishap)
      (serves : c.Serves table rolls after) : Begins c table ⟨c, after, .failed mishap⟩
  | paused {rolls : List Roll} {after : Table} {ahead : List TokenRef} {rolled : Nat}
      (still : c.rolling = false)
      (goes : Goes table (c.candidates table) 0 rolls (.paused ahead rolled, after)) :
      Begins c table ⟨{ c with rolling := true }, after, .paused ahead rolled⟩

theorem begins_beginBatch (c : Combat) (table : Table) : c.Begins table (c.beginBatch table) := by
  cases rolling : c.rolling with
  | true =>
    rw [beginBatch_of_rolling rolling]
    exact .finished (.of_nil (.remarked table _ _ _))
  | false =>
    have unmarked : ({ c with rolling := false } : Combat) = c := by rw [← rolling]
    obtain ⟨rolls, goes⟩ := exists_goes c.rollDelay table (c.candidates table) 0
    have serves := Serves.of_goes rolling goes
    rw [beginBatch_of_still rolling]
    cases went : rollAhead c.rollDelay table (c.candidates table) 0 with
    | mk result after =>
      rw [went] at goes serves
      simp only [continueBatch, went]
      cases result with
      | finished rolled =>
        obtain rfl : rolled = rolls.length := by simpa using goes.counts rfl
        simp only [unmarked]
        refine .finished ?_
        simpa using serves.trans (.of_nil (remark_of_remarkRolled after rolls.length))
      | failed mishap =>
        simp only [unmarked]
        exact .failed mishap serves
      | paused ahead rolled => exact .paused rolling goes

/-- A batch that has been finished reports the rolls that it has made. -/
theorem exists_rolls_beginBatch (c : Combat) (table : Table) :
    ∃ rolls, table.RollsTo rolls (c.beginBatch table).table ∧
      ∀ count, (c.beginBatch table).result = .finished count → count = rolls.length := by
  have begins := begins_beginBatch c table
  generalize c.beginBatch table = batch at begins
  cases begins with
  | @finished rolls after serves =>
    exact ⟨rolls, serves.leads, fun count reported => (Batch.finished.inj reported).symm⟩
  | @failed rolls after mishap serves =>
    exact ⟨rolls, serves.leads, fun count reported => by cases reported⟩
  | @paused rolls after ahead rolled still goes =>
    exact ⟨rolls, goes.rollsTo, fun count reported => by cases reported⟩

theorem exists_rolls_continueBatch (c : Combat) (table : Table) (ahead : List TokenRef)
    (rolled : Nat) :
    ∃ rolls, table.RollsTo rolls (c.continueBatch table ahead rolled).table ∧
      ∀ count, (c.continueBatch table ahead rolled).result = .finished count →
        count = rolled + rolls.length := by
  obtain ⟨rolls, goes⟩ := exists_goes c.rollDelay table ahead rolled
  refine ⟨rolls, ?_, fun count reported => goes.counts ?_⟩
  · simpa using goes.rollsTo.trans (table_continueBatch c table ahead rolled)
  · rw [result_continueBatch] at reported
    rw [reported, Batch.count?]

/-- A call for rolls reports what its batch reports. -/
theorem rolled_afterBatch_iff {count : Nat} :
    (afterBatch .roll batch).result = .ended (.rolled count) ↔ batch.result = .finished count := by
  obtain ⟨after, last, _ | _ | _⟩ := batch <;> simp [afterBatch]

/-! ## Errands that set out -/

/-- What a piece of an errand rolls that goes on with no batch: it rests in a batch that it has begun
last, or it does not rest. -/
inductive SetsOut (c : Combat) (table : Table) : Step Stage → Prop
  | passing {rolls : List Roll} {after : Combat} {last : Table} {stage : Stage}
      (reorders : c.Reorders after) (unmarked : after.rolling = c.rolling)
      (passes : stage.isResting = false) (serves : c.Serves table rolls last) :
      SetsOut c table ⟨after, last, stage⟩
  | resting {early rolls : List Roll} {after : Combat} {begun last : Table}
      {waiting ahead : List TokenRef} {rolled : Nat} (reorders : c.Reorders after)
      (still : c.rolling = false) (marked : after.rolling = true)
      (serves : c.Serves table early begun)
      (waits : ∀ ref ∈ waiting, ref ∈ c.combatants ∧ c.awaitsRoll (begun.token ref) = true)
      (goes : Goes begun waiting 0 rolls (.paused ahead rolled, last)) :
      SetsOut c table ⟨after, last, .resting ahead rolled⟩

theorem SetsOut.prepend (serves : c.Serves table rolls between) (setsOut : c.SetsOut between step) :
    c.SetsOut table step := by
  cases setsOut with
  | passing reorders unmarked passes later =>
    exact .passing reorders unmarked passes (serves.trans later)
  | resting reorders still marked later waits goes =>
    exact .resting reorders still marked (serves.trans later) waits goes

/-- What is rolled does not depend on the turn and the round. -/
theorem SetsOut.of_moved (turn round : Nat)
    (setsOut : SetsOut { c with turn, round } table step) : c.SetsOut table step := by
  cases setsOut with
  | passing reorders unmarked passes serves =>
    exact .passing ⟨reorders.perm, reorders.owned, reorders.listeners⟩ unmarked passes
      ⟨serves.leads, serves.waits⟩
  | resting reorders still marked serves waits goes =>
    exact .resting ⟨reorders.perm, reorders.owned, reorders.listeners⟩ still marked
      ⟨serves.leads, serves.waits⟩ waits goes

/-- To announce a turn is to roll for nobody, in whatever order it is announced. -/
theorem setsOut_announce {ordered : Combat} (reorders : c.Reorders ordered)
    (unmarked : ordered.rolling = c.rolling) (serves : c.Serves table rolls between) :
    c.SetsOut table (ordered.announce between) := by
  unfold announce
  split
  · exact .passing reorders unmarked rfl serves
  · exact .passing reorders unmarked rfl (serves.remarked _ _ _)

theorem setsOut_arrive {rounds : Nat} (begins : c.Begins table batch)
    (later : ∀ between, c.SetsOut between (seek rounds c between)) :
    c.SetsOut table (arrive rounds batch) := by
  cases begins with
  | finished serves =>
    rw [arrive]
    split
    · exact setsOut_announce (.refl c) rfl serves
    · exact .prepend serves (later _)
  | failed mishap serves => exact .passing ⟨.refl _, rfl, rfl⟩ rfl rfl serves
  | paused still goes =>
    exact .resting ⟨.refl _, rfl, rfl⟩ still rfl (.of_nil (.nil table))
      (fun _ => mem_candidates.mp) goes

theorem setsOut_seek (rounds : Nat) (c : Combat) (table : Table) :
    c.SetsOut table (seek rounds c table) := by
  induction rounds generalizing c table with
  | zero => exact .passing ⟨.refl _, rfl, rfl⟩ rfl rfl (.of_nil (.nil table))
  | succ rounds inductionHypothesis =>
    cases found : c.livingFrom? table (c.turn + 1) with
    | some place =>
      rw [seek_of_living rounds found]
      exact setsOut_announce ⟨.refl _, rfl, rfl⟩ rfl (.of_nil (.nil table))
    | none =>
      rw [seek_of_none rounds found]
      apply SetsOut.of_moved 0 (c.round + 1)
      exact .prepend (.of_nil (.remarked table _ _ _))
        (setsOut_arrive (begins_beginBatch c.wrapped _) (inductionHypothesis c.wrapped))

/-- After its batch an errand begins others only for the rounds that it comes to. -/
theorem setsOut_finished (errand : Errand) (c : Combat) (table : Table) (rolled : Nat) :
    c.SetsOut table (afterBatch errand ⟨c, table, .finished rolled⟩) := by
  cases errand with
  | roll | join => exact .passing ⟨.refl _, rfl, rfl⟩ rfl rfl (.of_nil (.nil table))
  | start =>
    have reorders : c.Reorders { c.sort table with round := 1, turn := 0, started := true } :=
      ⟨sort_perm c table, rfl, rfl⟩
    exact setsOut_announce reorders rfl (.of_nil (.remarked table _ _ _))
  | next =>
    rw [afterBatch_next, arrive]
    split
    · exact setsOut_announce ⟨.refl _, rfl, rfl⟩ rfl (.of_nil (.nil table))
    · exact setsOut_seek enoughRounds c table

theorem setsOut_afterBatch (errand : Errand) (begins : c.Begins table batch) :
    c.SetsOut table (afterBatch errand batch) := by
  cases begins with
  | finished serves => exact .prepend serves (setsOut_finished errand c _ _)
  | failed mishap serves => exact .passing ⟨.refl _, rfl, rfl⟩ rfl rfl serves
  | paused still goes =>
    exact .resting ⟨.refl _, rfl, rfl⟩ still rfl (.of_nil (.nil table))
      (fun _ => mem_candidates.mp) goes

theorem setsOut_next (c : Combat) (table : Table) : c.SetsOut table (c.next table).2 := by
  unfold next
  split
  · exact setsOut_afterBatch .start (begins_beginBatch c table)
  split
  · exact .passing ⟨.refl _, rfl, rfl⟩ rfl rfl (.of_nil (.nil table))
  · exact setsOut_seek enoughRounds c table

/-- A token that joins is among those that may be rolled for then. -/
theorem setsOut_join (c : Combat) (table : Table) (ref : TokenRef) :
    SetsOut { c with combatants := c.combatants ++ [ref] } table (c.join table ref) := by
  unfold join
  dsimp only
  split
  · exact setsOut_afterBatch .join (begins_beginBatch _ table)
  · exact .passing ⟨.refl _, rfl, rfl⟩ rfl rfl (.of_nil (.nil table))

theorem SetsOut.reorders (setsOut : c.SetsOut table step) : c.Reorders step.combat := by
  cases setsOut with
  | passing reorders | resting reorders => exact reorders

/-- Whoever is rolled for by an errand that sets out waits for the roll when it is made. -/
theorem SetsOut.exists_rolls (setsOut : c.SetsOut table step) :
    ∃ rolls, table.RollsTo rolls step.table ∧ ∀ roll ∈ rolls,
      roll.ref ∈ c.combatants ∧ c.awaitsRoll (roll.found.token roll.ref) = true := by
  cases setsOut with
  | passing reorders unmarked passes serves =>
    exact ⟨_, serves.leads, fun roll member => (serves.waits roll member).2⟩
  | resting reorders still marked serves waits goes =>
    refine ⟨_, serves.leads.trans goes.rollsTo, fun roll member => ?_⟩
    rcases List.mem_append.mp member with early | late
    · exact (serves.waits roll early).2
    · rw [goes.rollsTo.found_eq roll late]
      exact waits roll.ref (goes.within roll late)

/-! ## Errands that are taken up -/

/-- What a piece of an errand rolls that goes on with a batch: it rests in that batch again, or the
batch is over and the errand goes on from there. -/
inductive TakesUp (c : Combat) (table : Table) (ahead : List TokenRef) (rolled : Nat) :
    Step Stage → Prop
  | resting {rolls : List Roll} {last : Table} {later : List TokenRef} {count : Nat}
      (goes : Goes table ahead rolled rolls (.paused later count, last)) :
      TakesUp c table ahead rolled ⟨c, last, .resting later count⟩
  | ended {rolls : List Roll} {left : Batch × Table} {step : Step Stage}
      (goes : Goes table ahead rolled rolls left)
      (setsOut : SetsOut { c with rolling := false } left.2 step) :
      TakesUp c table ahead rolled step

theorem takesUp_rested (c : Combat) (table : Table) (errand : Errand) (ahead : List TokenRef)
    (rolled : Nat) : c.TakesUp table ahead rolled (c.rested table errand ahead rolled) := by
  obtain ⟨rolls, goes⟩ := exists_goes c.rollDelay table ahead rolled
  cases went : rollAhead c.rollDelay table ahead rolled with
  | mk result after =>
    rw [went] at goes
    simp only [rested, continueBatch, went]
    cases result with
    | finished count =>
      exact .ended goes (.prepend (.of_nil (remark_of_remarkRolled after count))
        (setsOut_finished errand { c with rolling := false } _ count))
    | failed mishap =>
      exact .ended goes (.passing ⟨.refl _, rfl, rfl⟩ rfl rfl (.of_nil (.nil after)))
    | paused later count => exact .resting goes

theorem TakesUp.reorders {ahead : List TokenRef} {rolled : Nat}
    (takesUp : c.TakesUp table ahead rolled step) : c.Reorders step.combat := by
  cases takesUp with
  | resting goes => exact .refl c
  | ended goes setsOut =>
    have reorders := setsOut.reorders
    exact ⟨reorders.perm, reorders.owned, reorders.listeners⟩

/-- An errand that is taken up rolls for those ahead, and after that for whoever waits. -/
theorem TakesUp.exists_rolls {ahead : List TokenRef} {rolled : Nat}
    (takesUp : c.TakesUp table ahead rolled step) :
    ∃ rolls, table.RollsTo rolls step.table ∧ ∀ roll ∈ rolls,
      roll.ref ∈ ahead ∨
        roll.ref ∈ c.combatants ∧ c.awaitsRoll (roll.found.token roll.ref) = true := by
  cases takesUp with
  | resting goes => exact ⟨_, goes.rollsTo, fun roll member => .inl (goes.within roll member)⟩
  | ended goes setsOut =>
    obtain ⟨more, leads, waits⟩ := setsOut.exists_rolls
    refine ⟨_, goes.rollsTo.trans leads, fun roll member => ?_⟩
    rcases List.mem_append.mp member with early | late
    · exact .inl (goes.within roll early)
    · exact .inr (waits roll late)

end

end Combat
end TurnScript
