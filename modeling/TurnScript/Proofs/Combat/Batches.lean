import TurnScript.Proofs.Combat.Rounds

/-!
# Batches of rolls

A batch gives initiatives to tokens that have none, and does nothing else to any token. It goes
through the tokens ahead of it in order, so when nobody else rolls or clears initiatives meanwhile,
no combatant waits for a roll any longer once it is finished.
-/

namespace TurnScript

namespace Table

/-- Whether all that has become of tokens is that some of those ahead, which had no initiative, have
one. -/
def RollsFor (ahead : List TokenRef) (before after : Table) : Prop :=
  ∀ ref, after.token ref = before.token ref ∨
    ref ∈ ahead ∧ (before.token ref).initiative = none ∧
      ∃ total, after.token ref = { before.token ref with initiative := some total }

theorem rollsFor_of_same {ahead : List TokenRef} {before after : Table}
    (same : after.token = before.token) : RollsFor ahead before after :=
  fun ref => .inl (congrFun same ref)

theorem RollsFor.trans {ahead : List TokenRef} {first second third : Table}
    (early : RollsFor ahead first second) (late : RollsFor ahead second third) :
    RollsFor ahead first third := by
  intro ref
  rcases early ref with same | ⟨member, none, total, rolled⟩
  · rw [← same]
    exact late ref
  · rcases late ref with same | ⟨_, again, _⟩
    · exact .inr ⟨member, none, total, same.trans rolled⟩
    · -- A token that has been rolled for is not rolled for again.
      rw [rolled] at again
      cases again

theorem RollsFor.mono {ahead more : List TokenRef} {before after : Table}
    (rolls : RollsFor ahead before after) (within : ahead ⊆ more) :
    RollsFor more before after :=
  fun ref => (rolls ref).imp_right fun ⟨member, rolled⟩ => ⟨within member, rolled⟩

end Table

namespace Combat

/-- Whether every combatant that waits for a roll is among those ahead. -/
def Covers (c : Combat) (table : Table) (ahead : List TokenRef) : Prop :=
  ∀ ref ∈ c.combatants, c.awaitsRoll (table.token ref) = true → ref ∈ ahead

theorem covers_candidates (c : Combat) (table : Table) : c.Covers table (c.candidates table) :=
  fun _ listed waits => mem_candidates.mpr ⟨listed, waits⟩

theorem covers_nil_iff {c : Combat} {table : Table} :
    c.Covers table [] ↔ c.candidates table = [] := by
  rw [List.eq_nil_iff_forall_not_mem]
  exact ⟨fun covers ref listed => absurd (covers ref (mem_candidates.mp listed).1
      (mem_candidates.mp listed).2) List.not_mem_nil,
    fun nobody ref listed waits => absurd (mem_candidates.mpr ⟨listed, waits⟩) (nobody ref)⟩

/-- A token that does not wait for a roll need not be ahead. -/
theorem Covers.tail {c : Combat} {table : Table} {ref : TokenRef} {ahead : List TokenRef}
    (covers : c.Covers table (ref :: ahead)) (served : c.awaitsRoll (table.token ref) = false) :
    c.Covers table ahead := by
  intro other listed waits
  rcases List.mem_cons.mp (covers other listed waits) with rfl | later
  · rw [served] at waits
    cases waits
  · exact later

/-- What may have become of a token, one batch of rolls after another: nothing, or it waited for a
roll and has been rolled for. -/
def Rolled (c : Combat) (before after : Token) : Prop :=
  after = before ∨ c.awaitsRoll before = true ∧
    ∃ total, after = { before with initiative := some total }

theorem Rolled.trans {c : Combat} {first second third : Token} (early : c.Rolled first second)
    (late : c.Rolled second third) : c.Rolled first third := by
  rcases early with rfl | ⟨waits, total, rfl⟩
  · exact late
  · rcases late with rfl | ⟨again, -⟩
    · exact .inr ⟨waits, total, rfl⟩
    · cases again

theorem Rolled.id {c : Combat} {before after : Token} (rolled : c.Rolled before after) :
    after.id = before.id := by
  rcases rolled with rfl | ⟨-, total, rfl⟩ <;> rfl

theorem Rolled.alive {c : Combat} {before after : Token} (rolled : c.Rolled before after) :
    after.alive = before.alive := by
  rcases rolled with rfl | ⟨-, total, rfl⟩ <;> rfl

/-- A batch that goes on rolls only for those who waited when it began. -/
theorem Rolled.rollsFor {c : Combat} {begun before after : Table} {ahead : List TokenRef}
    {ref : TokenRef} (rolled : c.Rolled (begun.token ref) (before.token ref))
    (within : ahead ⊆ c.candidates begun) (rolls : before.RollsFor ahead after) :
    c.Rolled (begun.token ref) (after.token ref) := by
  rcases rolls ref with same | ⟨listed, none, total, later⟩
  · rwa [same]
  · rcases rolled with same | ⟨-, earlier, same⟩
    · rw [same] at later
      exact .inr ⟨(mem_candidates.mp (within listed)).2, total, later⟩
    · -- Who has been rolled for has an initiative.
      rw [same] at none
      cases none

/-! ### One roll -/

theorem token_setInitiative_eq (table : Table) (ref : TokenRef) (total : Int) (other : TokenRef) :
    (setInitiative table ref total).token other =
      if other = ref ∧ other < table.board.roster.length then
        { table.token other with initiative := some total } else table.token other :=
  Board.token_change table.board ref _ other

theorem token_setInitiative (table : Table) (ref other : TokenRef) (total : Int) :
    (setInitiative table ref total).token other = table.token other ∨
      other = ref ∧ (setInitiative table ref total).token other =
        { table.token other with initiative := some total } := by
  rw [token_setInitiative_eq]
  split
  · next written => exact .inr ⟨written.1, rfl⟩
  · exact .inl rfl

theorem rollsFor_setInitiative (table : Table) {ref : TokenRef} (ahead : List TokenRef)
    (total : Int) (none : (table.token ref).initiative = none) :
    table.RollsFor (ref :: ahead) (setInitiative table ref total) := by
  intro other
  rcases token_setInitiative table ref other total with same | ⟨rfl, rolled⟩
  · exact .inl same
  · exact .inr ⟨List.mem_cons_self, none, total, rolled⟩

/-- After its roll a token waits for none. -/
theorem awaitsRoll_setInitiative (c : Combat) (table : Table) (ref : TokenRef) (total : Int) :
    c.awaitsRoll ((setInitiative table ref total).token ref) = false := by
  by_cases listed : ref < table.board.roster.length
  · have rolled : (setInitiative table ref total).token ref =
        { table.token ref with initiative := some total } :=
      Board.token_change_self table.board _ listed
    rw [rolled, awaitsRoll]
    rfl
  · -- Whoever is not in the roster is not flagged.
    have nobody : (setInitiative table ref total).token ref = default := by
      rw [token_setInitiative_eq, if_neg fun both => listed both.2]
      exact table.board.token_of_unlisted listed
    rw [nobody, awaitsRoll]
    rfl

theorem covers_setInitiative {c : Combat} (table : Table) {ref : TokenRef}
    {ahead : List TokenRef} (total : Int) (covers : c.Covers table (ref :: ahead)) :
    c.Covers (setInitiative table ref total) ahead := by
  refine Covers.tail (fun other listed waits => ?_) (awaitsRoll_setInitiative c table ref total)
  rcases token_setInitiative table ref other total with same | ⟨rfl, _⟩
  · exact covers other listed (same ▸ waits)
  · exact List.mem_cons_self

/-! ### Up to the next pause -/

theorem rollsFor_rollAhead (delay : Int) (table : Table) (ahead : List TokenRef)
    (rolled : Nat) : table.RollsFor ahead (rollAhead delay table ahead rolled).2 := by
  fun_induction rollAhead delay table ahead rolled with
  | case1 | case3 => exact Table.rollsFor_of_same rfl
  | case2 _ _ _ _ _ _ inductionHypothesis =>
    exact inductionHypothesis.mono (List.subset_cons_self _ _)
  | case4 => exact Table.rollsFor_of_same rfl
  | case5 table ref ahead _ _ waits _ _ total dice
  | case6 table ref ahead _ _ waits _ _ total dice =>
    exact rollsFor_setInitiative { table with dice } ahead total
      (Option.not_isSome_iff_eq_none.mp waits)
  | case7 table ref ahead _ _ waits _ _ total dice _ _ _ inductionHypothesis =>
    have rolled := rollsFor_setInitiative { table with dice } ahead total
      (Option.not_isSome_iff_eq_none.mp waits)
    exact .trans rolled (inductionHypothesis.mono (List.subset_cons_self _ _))

/-- How far a batch comes that covers everyone: when it is finished nobody waits any longer, and
where it pauses it still covers everyone, with fewer ahead. -/
def Batch.Leaves (c : Combat) (table : Table) (ahead : List TokenRef) : Batch → Prop
  | .finished _ => c.Covers table []
  | .paused later _ => c.Covers table later ∧ later ⊆ ahead ∧ later.length < ahead.length
  | .failed _ => True

theorem Batch.Leaves.cons {c : Combat} {table : Table} {ref : TokenRef} {ahead : List TokenRef}
    {batch : Batch} (leaves : batch.Leaves c table ahead) :
    batch.Leaves c table (ref :: ahead) := by
  cases batch with
  | finished | failed => exact leaves
  | paused later rolled =>
    obtain ⟨covers, within, fewer⟩ := leaves
    exact ⟨covers, List.subset_cons_of_subset _ within, Nat.lt_succ_of_lt fewer⟩

theorem rollAhead_leaves {c : Combat} (delay : Int) (table : Table) (ahead : List TokenRef)
    (rolled : Nat) (covers : c.Covers table ahead) :
    (rollAhead delay table ahead rolled).1.Leaves c (rollAhead delay table ahead rolled).2
      ahead := by
  fun_induction rollAhead delay table ahead rolled with
  | case1 => exact covers
  | case2 table ref ahead _ _ served inductionHypothesis =>
    refine (inductionHypothesis (covers.tail ?_)).cons
    rw [awaitsRoll, ← Option.not_isSome, served]
    rfl
  | case3 | case4 | case5 => trivial
  | case6 table ref ahead _ _ _ _ _ total dice =>
    exact ⟨covers_setInitiative { table with dice } total covers, List.subset_cons_self _ _,
      Nat.lt_succ_self _⟩
  | case7 table ref ahead _ _ _ _ _ total dice _ _ _ inductionHypothesis =>
    exact (inductionHypothesis (covers_setInitiative { table with dice } total covers)).cons

/-! ### What comes of a batch -/

/-- What comes of a batch that goes on with those ahead. -/
inductive Proceeds (c : Combat) (table : Table) (ahead : List TokenRef) : Step Batch → Prop
  | finished (after : Table) (rolled : Nat) (rolls : table.RollsFor ahead after)
      (served : c.Covers table ahead → c.Covers after []) :
      Proceeds c table ahead ⟨{ c with rolling := false }, after, .finished rolled⟩
  | paused (after : Table) (later : List TokenRef) (rolled : Nat)
      (rolls : table.RollsFor ahead after)
      (fewer : c.Covers table ahead →
        c.Covers after later ∧ later ⊆ ahead ∧ later.length < ahead.length) :
      Proceeds c table ahead ⟨c, after, .paused later rolled⟩
  | failed (after : Table) (mishap : Mishap) (rolls : table.RollsFor ahead after) :
      Proceeds c table ahead ⟨{ c with rolling := false }, after, .failed mishap⟩

theorem token_remarkRolled (table : Table) (rolled : Nat) :
    (remarkRolled table rolled).token = table.token := by
  unfold remarkRolled
  split <;> rfl

theorem continueBatch_proceeds (c : Combat) (table : Table) (ahead : List TokenRef)
    (rolled : Nat) : c.Proceeds table ahead (c.continueBatch table ahead rolled) := by
  have rolls := rollsFor_rollAhead c.rollDelay table ahead rolled
  have leaves := @rollAhead_leaves c c.rollDelay table ahead rolled
  unfold continueBatch
  split <;> rename_i found <;> rw [found] at rolls leaves
  · next count after =>
    have same := token_remarkRolled after count
    refine .finished _ count (rolls.trans (Table.rollsFor_of_same same)) fun covers => ?_
    intro ref listed waits
    rw [same] at waits
    exact leaves covers ref listed waits
  · exact .failed _ _ rolls
  · exact .paused _ _ _ rolls leaves

theorem beginBatch_of_still {c : Combat} (still : c.rolling = false) (table : Table) :
    c.beginBatch table =
      { c with rolling := true }.continueBatch table (c.candidates table) 0 := by
  rw [beginBatch, still]
  rfl

/-- While a batch is under way, another one does nothing. -/
theorem beginBatch_of_rolling {c : Combat} (rolling : c.rolling = true) (table : Table) :
    c.beginBatch table =
      ⟨c, table.remark "combat" .debug "Already rolling initiative, skipping", .finished 0⟩ := by
  rw [beginBatch, if_pos rolling]

end Combat
end TurnScript
