import Mathlib.Data.List.Infix
import Mathlib.Data.List.Nodup
import TurnScript.Proofs.Combat.Batches
import TurnScript.Proofs.Dice.Throws

/-!
# Rolls of a batch

A batch is told by the rolls that it makes, in order: for whom, what the die shows, and how the
table lies at that moment. A roll is made only for a token that has no initiative when it is made,
and a batch counts its rolls. Once it has been rolled for, a token has an initiative, so it is
passed over if it comes up again.

The traces here lie beside the batches that they are of. They decide nothing.
-/

namespace TurnScript

namespace Combat

/-- A roll for initiative: for whom, what the die shows, and the table that it is made at. -/
structure Roll where
  ref : TokenRef
  natural : Int
  found : Table
  deriving Repr, DecidableEq

end Combat

/-! ## Single rolls -/

namespace Table

variable {table after : Table} {roll : Combat.Roll} {other : TokenRef}

/-- A roll is made at a table and leads to a later one. -/
structure Takes (table : Table) (roll : Combat.Roll) (after : Table) : Prop where
  found : roll.found = table
  lacks : (table.token roll.ref).initiative = none
  written : ∃ score dice, (table.token roll.ref).score? .dexterity = some score ∧
    table.dice.Throws 20 [roll.natural] dice ∧
    after = Combat.setInitiative { table with dice } roll.ref (roll.natural + scoreModifier score)

/-- Whoever is flagged is in the roster. -/
theorem listed_of_flagged {ref : TokenRef} (flagged : (table.token ref).autoInitiative = true) :
    ref < table.board.roster.length := by
  by_contra unlisted
  have nobody : table.token ref = default := table.board.token_of_unlisted unlisted
  rw [nobody] at flagged
  cases flagged

theorem length_roster_setInitiative (table : Table) (ref : TokenRef) (total : Int) :
    (Combat.setInitiative table ref total).board.roster.length = table.board.roster.length := by
  simp [Combat.setInitiative, Table.change, Table.remark, Board.change]

theorem Takes.length_roster (takes : table.Takes roll after) :
    after.board.roster.length = table.board.roster.length := by
  obtain ⟨score, dice, -, -, rfl⟩ := takes.written
  exact length_roster_setInitiative _ _ _

/-- Nobody else is touched by a roll. -/
theorem Takes.token_ne (takes : table.Takes roll after) (another : other ≠ roll.ref) :
    after.token other = table.token other := by
  obtain ⟨score, dice, -, -, rfl⟩ := takes.written
  exact Board.token_change_ne table.board _ another

/-- Whoever is rolled for has the initiative then, and is as before otherwise. -/
theorem Takes.token_self (takes : table.Takes roll after)
    (listed : roll.ref < table.board.roster.length) :
    ∃ score, (table.token roll.ref).score? .dexterity = some score ∧ after.token roll.ref =
      { table.token roll.ref with initiative := some (roll.natural + scoreModifier score) } := by
  obtain ⟨score, dice, scored, -, rfl⟩ := takes.written
  exact ⟨score, scored, Board.token_change_self table.board _ listed⟩

/-- A roll leaves a token as it is or gives it an initiative that it had not. -/
theorem Takes.initiative (takes : table.Takes roll after) (other : TokenRef) :
    after.token other = table.token other ∨
      ∃ total, after.token other = { table.token other with initiative := some total } := by
  obtain ⟨score, dice, -, -, rfl⟩ := takes.written
  rcases Combat.token_setInitiative { table with dice } roll.ref other _ with same | ⟨-, rolled⟩
  · exact .inl same
  · exact .inr ⟨_, rolled⟩

/-! ## Rolls one after another -/

/-- Rolls lead from a table to a later one. Between them remarks are left, and nothing else is
done. -/
inductive RollsTo : Table → List Combat.Roll → Table → Prop
  | nil (table : Table) : RollsTo table [] table
  | said {table after : Table} {rolls : List Combat.Roll} (source : String) (level : Level)
      (text : String) (rest : RollsTo (table.remark source level text) rolls after) :
      RollsTo table rolls after
  | cons {table between after : Table} {roll : Combat.Roll} {rolls : List Combat.Roll}
      (first : table.Takes roll between) (rest : RollsTo between rolls after) :
      RollsTo table (roll :: rolls) after

variable {first second third : Table} {rolls more : List Combat.Roll}

theorem RollsTo.remarked (table : Table) (source : String) (level : Level) (text : String) :
    table.RollsTo [] (table.remark source level text) :=
  .said source level text (.nil _)

theorem RollsTo.trans (early : first.RollsTo rolls second) (late : second.RollsTo more third) :
    first.RollsTo (rolls ++ more) third := by
  induction early with
  | nil => exact late
  | said source level text _ inductionHypothesis =>
    exact .said source level text (inductionHypothesis late)
  | cons taken _ inductionHypothesis => exact .cons taken (inductionHypothesis late)

/-- A roll is made for a token that has no initiative at that moment. -/
theorem RollsTo.lacks (leads : first.RollsTo rolls second) :
    ∀ roll ∈ rolls, (roll.found.token roll.ref).initiative = none := by
  induction leads with
  | nil => exact fun roll member => absurd member List.not_mem_nil
  | said _ _ _ _ inductionHypothesis => exact inductionHypothesis
  | cons taken _ inductionHypothesis =>
    intro roll member
    rcases List.mem_cons.mp member with rfl | later
    · rw [taken.found]
      exact taken.lacks
    · exact inductionHypothesis roll later

/-- Whoever is rolled for is at that moment as before all the rolls. -/
theorem RollsTo.found_eq (leads : first.RollsTo rolls second) :
    ∀ roll ∈ rolls, roll.found.token roll.ref = first.token roll.ref := by
  induction leads with
  | nil => exact fun roll member => absurd member List.not_mem_nil
  | said _ _ _ _ inductionHypothesis => exact inductionHypothesis
  | cons taken rest inductionHypothesis =>
    intro roll member
    rcases List.mem_cons.mp member with rfl | later
    · rw [taken.found]
    · have same := inductionHypothesis roll later
      rcases taken.initiative roll.ref with kept | ⟨total, rolled⟩
      · rw [same, kept]
      · -- Nobody is rolled for again.
        have lacks := rest.lacks roll later
        rw [same, rolled] at lacks
        cases lacks

/-- A roll is one throw of a twenty-sided die. -/
theorem RollsTo.shown (leads : first.RollsTo rolls second) :
    ∀ roll ∈ rolls, ∃ dice, roll.found.dice.Throws 20 [roll.natural] dice := by
  induction leads with
  | nil => exact fun roll member => absurd member List.not_mem_nil
  | said _ _ _ _ inductionHypothesis => exact inductionHypothesis
  | cons taken _ inductionHypothesis =>
    intro roll member
    rcases List.mem_cons.mp member with rfl | later
    · obtain ⟨_, dice, -, shown, -⟩ := taken.written
      rw [taken.found]
      exact ⟨dice, shown⟩
    · exact inductionHypothesis roll later

/-- Whoever is not rolled for is as before. -/
theorem RollsTo.token_of_not_mem (leads : first.RollsTo rolls second)
    (passed : other ∉ rolls.map Combat.Roll.ref) : second.token other = first.token other := by
  induction leads with
  | nil => rfl
  | said _ _ _ _ inductionHypothesis => exact inductionHypothesis passed
  | cons taken _ inductionHypothesis =>
    rw [List.map_cons, List.mem_cons, not_or] at passed
    rw [inductionHypothesis passed.2, taken.token_ne passed.1]

/-- Whatever a token has keeps it, an initiative included. -/
theorem RollsTo.keeps (leads : first.RollsTo rolls second) (other : TokenRef) :
    second.token other = first.token other ∨ (first.token other).initiative = none ∧
      ∃ total, second.token other = { first.token other with initiative := some total } := by
  induction leads with
  | nil => exact .inl rfl
  | said _ _ _ _ inductionHypothesis => exact inductionHypothesis
  | @cons table between after roll rolls taken _ inductionHypothesis =>
    by_cases same : other = roll.ref
    · subst same
      rcases taken.initiative roll.ref with kept | ⟨total, rolled⟩
      · rwa [← kept]
      · rcases inductionHypothesis with kept | ⟨lacks, -⟩
        · exact .inr ⟨taken.lacks, total, kept.trans rolled⟩
        · rw [rolled] at lacks
          cases lacks
    · rwa [← taken.token_ne same]

/-- Whoever is rolled for has what the die showed and the modifier of its dexterity. -/
theorem RollsTo.token_of_mem (leads : first.RollsTo rolls second)
    (listed : ∀ roll ∈ rolls, roll.ref < first.board.roster.length) :
    ∀ roll ∈ rolls, ∃ score, (first.token roll.ref).score? .dexterity = some score ∧
      second.token roll.ref =
        { first.token roll.ref with initiative := some (roll.natural + scoreModifier score) } := by
  induction leads with
  | nil => exact fun roll member => absurd member List.not_mem_nil
  | said _ _ _ _ inductionHypothesis => exact inductionHypothesis listed
  | @cons table between after one rolls taken rest inductionHypothesis =>
    obtain ⟨listedFirst, listedRest⟩ := List.forall_mem_cons.mp listed
    have later := inductionHypothesis (taken.length_roster ▸ listedRest)
    obtain ⟨score, scored, written⟩ := taken.token_self listedFirst
    intro roll member
    rcases List.mem_cons.mp member with rfl | inRest
    · refine ⟨score, scored, ?_⟩
      rcases rest.keeps roll.ref with kept | ⟨lacks, -⟩
      · rw [kept, written]
      · rw [written] at lacks
        cases lacks
    · obtain ⟨score, scored, written⟩ := later roll inRest
      rcases taken.initiative roll.ref with kept | ⟨total, rolled⟩
      · rw [kept] at scored written
        exact ⟨score, scored, written⟩
      · rw [rolled] at scored written
        exact ⟨score, scored, written⟩

end Table

/-! ## Rolls of the dice -/

namespace Dice

variable {dice after : Dice} {score : Int}

theorem roll_eq_error {low high : Int} {error : RollError}
    (failed : dice.roll low high = (.error error, after)) : after = dice := by
  unfold roll at failed
  split at failed
  · exact (Prod.mk.inj failed).2.symm
  · split at failed <;> cases failed
    rfl

/-- Initiative that can be rolled is one throw and the modifier. -/
theorem throws_of_rollInitiative {total : Int}
    (rolled : dice.rollInitiative score = (.ok total, after)) :
    ∃ natural, dice.Throws 20 [natural] after ∧ total = natural + scoreModifier score := by
  unfold rollInitiative at rolled
  split at rolled
  · cases rolled
  · next natural last shown =>
    cases rolled
    cases lands_of_rollD20 shown with
    | once plain throws => exact ⟨natural, throws, rfl⟩
    | better edge => cases edge
    | worse plain edge => cases edge

/-- Dice that show nothing stay as they are. -/
theorem rollInitiative_eq_error {error : RollError}
    (failed : dice.rollInitiative score = (.error error, after)) : after = dice := by
  unfold rollInitiative rollD20 at failed
  cases first : dice.roll 1 20 with
  | mk shown last =>
    cases shown with
    | error error =>
      rw [first] at failed
      cases failed
      exact roll_eq_error first
    | ok natural =>
      rw [first] at failed
      cases failed

end Dice

namespace Combat

/-! ## Pieces of a batch -/

/-- How many tokens a batch has rolled for, unless it has failed. -/
def Batch.count? : Batch → Option Nat
  | .finished rolled | .paused _ rolled => some rolled
  | .failed _ => none

/-- The tokens that a batch has still ahead. -/
def Batch.ahead : Batch → List TokenRef
  | .paused ahead _ => ahead
  | .finished _ | .failed _ => []

/-- How a batch goes on with the tokens ahead, up to its next pause: the rolls that it makes, what
it comes to and the table that it leaves. -/
inductive Goes : Table → List TokenRef → Nat → List Roll → Batch × Table → Prop
  | finished (table : Table) (rolled : Nat) : Goes table [] rolled [] (.finished rolled, table)
  /-- Whoever has an initiative is passed over. -/
  | served {table : Table} {ref : TokenRef} {ahead : List TokenRef} {rolled : Nat}
      {rolls : List Roll} {left : Batch × Table} (has : (table.token ref).initiative ≠ none)
      (rest : Goes table ahead rolled rolls left) : Goes table (ref :: ahead) rolled rolls left
  | failed (table : Table) (ref : TokenRef) (ahead : List TokenRef) (rolled : Nat)
      (mishap : Mishap) : Goes table (ref :: ahead) rolled [] (.failed mishap, table)
  /-- The pause after a roll is too long. -/
  | overlong {table after : Table} {roll : Roll} (ahead : List TokenRef) (rolled : Nat)
      (taken : table.Takes roll after) :
      Goes table (roll.ref :: ahead) rolled [roll] (.failed .overlong, after)
  | paused {table after : Table} {roll : Roll} (ahead : List TokenRef) (rolled : Nat)
      (taken : table.Takes roll after) :
      Goes table (roll.ref :: ahead) rolled [roll] (.paused ahead (rolled + 1), after)
  | rolled {table after : Table} {roll : Roll} {ahead : List TokenRef} {rolled : Nat}
      {rolls : List Roll} {left : Batch × Table} (taken : table.Takes roll after)
      (rest : Goes after ahead (rolled + 1) rolls left) :
      Goes table (roll.ref :: ahead) rolled (roll :: rolls) left

variable {table : Table} {ahead : List TokenRef} {rolled : Nat} {rolls : List Roll}
  {left : Batch × Table}

/-- A roll of a batch for a token that has no initiative. -/
theorem exists_takes {ref : TokenRef} {score total : Int} {dice : Dice}
    (lacks : ¬ (table.token ref).initiative.isSome = true)
    (scored : (table.token ref).score? .dexterity = some score)
    (rolled : table.dice.rollInitiative score = (.ok total, dice)) :
    ∃ roll, roll.ref = ref ∧
      table.Takes roll (setInitiative { table with dice } ref total) := by
  obtain ⟨natural, shown, rfl⟩ := Dice.throws_of_rollInitiative rolled
  exact ⟨⟨ref, natural, table⟩, rfl, rfl, Option.not_isSome_iff_eq_none.mp lacks, score, dice,
    scored, shown, rfl⟩

theorem exists_goes (delay : Int) (table : Table) (ahead : List TokenRef) (rolled : Nat) :
    ∃ rolls, Goes table ahead rolled rolls (rollAhead delay table ahead rolled) := by
  fun_induction rollAhead delay table ahead rolled with
  | case1 table rolled => exact ⟨[], .finished table rolled⟩
  | case2 table ref ahead rolled token has inductionHypothesis =>
    obtain ⟨rolls, goes⟩ := inductionHypothesis
    exact ⟨rolls, .served (Option.isSome_iff_ne_none.mp has) goes⟩
  | case3 table ref ahead rolled => exact ⟨[], .failed table ref ahead rolled _⟩
  | case4 table ref ahead rolled token lacks score scored error dice failed =>
    obtain rfl := Dice.rollInitiative_eq_error failed
    exact ⟨[], .failed table ref ahead rolled _⟩
  | case5 table ref ahead rolled token lacks score scored total dice made =>
    obtain ⟨roll, rfl, taken⟩ := exists_takes lacks scored made
    exact ⟨[roll], .overlong ahead rolled taken⟩
  | case6 table ref ahead rolled token lacks score scored total dice made =>
    obtain ⟨roll, rfl, taken⟩ := exists_takes lacks scored made
    exact ⟨[roll], .paused ahead rolled taken⟩
  | case7 table ref ahead rolled token lacks score scored total dice made _ _ inductionHypothesis =>
    obtain ⟨roll, rfl, taken⟩ := exists_takes lacks scored made
    obtain ⟨rolls, goes⟩ := inductionHypothesis
    exact ⟨roll :: rolls, .rolled taken goes⟩

theorem Goes.rollsTo (goes : Goes table ahead rolled rolls left) : table.RollsTo rolls left.2 := by
  induction goes with
  | finished table | failed table => exact .nil table
  | served _ _ inductionHypothesis => exact inductionHypothesis
  | overlong _ _ taken | paused _ _ taken => exact .cons taken (.nil _)
  | rolled taken _ inductionHypothesis => exact .cons taken inductionHypothesis

/-- A batch counts the rolls that it makes. -/
theorem Goes.counts (goes : Goes table ahead rolled rolls left) {count : Nat}
    (counted : left.1.count? = some count) : count = rolled + rolls.length := by
  induction goes with
  | finished | paused => exact (Option.some.inj counted).symm
  | failed | overlong => cases counted
  | served _ _ inductionHypothesis => exact inductionHypothesis counted
  | rolled _ _ inductionHypothesis =>
    rw [inductionHypothesis counted, List.length_cons]
    omega

/-- Only tokens ahead are rolled for. -/
theorem Goes.within (goes : Goes table ahead rolled rolls left) :
    ∀ roll ∈ rolls, roll.ref ∈ ahead := by
  induction goes with
  | finished | failed => exact fun roll member => absurd member List.not_mem_nil
  | served _ _ inductionHypothesis =>
    exact fun roll member => List.mem_cons_of_mem _ (inductionHypothesis roll member)
  | overlong | paused =>
    intro roll member
    rw [List.mem_singleton.mp member]
    exact List.mem_cons_self
  | rolled _ _ inductionHypothesis =>
    intro roll member
    rcases List.mem_cons.mp member with rfl | later
    · exact List.mem_cons_self
    · exact List.mem_cons_of_mem _ (inductionHypothesis roll later)

/-- Where a batch pauses, the last of those ahead are still ahead. -/
theorem Goes.suffix (goes : Goes table ahead rolled rolls left) : left.1.ahead <:+ ahead := by
  induction goes with
  | finished | failed | overlong => exact List.nil_suffix
  | served _ _ inductionHypothesis | rolled _ _ inductionHypothesis =>
    exact inductionHypothesis.trans (List.suffix_cons _ _)
  | paused => exact List.suffix_cons _ _

/-- Where a batch pauses, fewer are ahead. -/
theorem Goes.fewer (goes : Goes table ahead rolled rolls left) {later : List TokenRef} {count : Nat}
    (paused : left.1 = .paused later count) : later.length < ahead.length := by
  induction goes with
  | finished | failed | overlong => cases paused
  | served _ _ inductionHypothesis | rolled _ _ inductionHypothesis =>
    exact Nat.lt_succ_of_lt (inductionHypothesis paused)
  | paused ahead rolled taken =>
    obtain ⟨rfl, -⟩ := Batch.paused.inj paused
    exact Nat.lt_succ_self _

/-! ## Who is rolled for -/

/-- The tokens of a list that have no initiative, each of them once. -/
def lacking (table : Table) (refs : List TokenRef) : List TokenRef :=
  (refs.filter fun ref => (table.token ref).initiative.isNone).eraseDups

theorem lacking_cons_of_has {ref : TokenRef} (has : (table.token ref).initiative ≠ none)
    (refs : List TokenRef) : lacking table (ref :: refs) = lacking table refs := by
  simp [lacking, has]

/-- A token that is rolled for is the first that has none, and has one then. -/
theorem lacking_cons_of_takes {roll : Roll} {after : Table} (taken : table.Takes roll after)
    (listed : roll.ref < table.board.roster.length) (refs : List TokenRef) :
    lacking table (roll.ref :: refs) = roll.ref :: lacking after refs := by
  have lacks : (table.token roll.ref).initiative.isNone = true := by
    rw [taken.lacks]
    rfl
  simp only [lacking, List.filter_cons, lacks, ↓reduceIte, List.eraseDups_cons, List.filter_filter]
  congr 2
  apply List.filter_congr
  intro other _
  by_cases same : other = roll.ref
  · obtain ⟨score, -, written⟩ := taken.token_self listed
    rw [same, written]
    simp
  · rw [taken.token_ne same]
    simp [same]

/-- Unless a batch fails, it rolls for those ahead who have no initiative, each once and in their
order, up to its next pause. -/
theorem Goes.lacking (goes : Goes table ahead rolled rolls left)
    (listed : ∀ ref ∈ ahead, ref < table.board.roster.length) {count : Nat}
    (counted : left.1.count? = some count) :
    rolls.map Roll.ref ++ Combat.lacking left.2 left.1.ahead = Combat.lacking table ahead := by
  induction goes with
  | finished => rfl
  | failed | overlong => cases counted
  | served has _ inductionHypothesis =>
    rw [lacking_cons_of_has has]
    exact inductionHypothesis (fun ref later => listed ref (List.mem_cons_of_mem _ later)) counted
  | paused _ _ taken =>
    rw [lacking_cons_of_takes taken (listed _ List.mem_cons_self)]
    rfl
  | rolled taken _ inductionHypothesis =>
    rw [lacking_cons_of_takes taken (listed _ List.mem_cons_self), List.map_cons, List.cons_append,
      inductionHypothesis (fun ref later => ?_) counted]
    rw [taken.length_roster]
    exact listed ref (List.mem_cons_of_mem _ later)

/-! ## Batches with rests -/

/-- What a batch has done since it began, with rests in which nobody has touched a combatant: it has
rolled for some of the candidates, each by a throw of its own, those ahead who lack an initiative are
the others, and nothing else has become of a combatant. -/
structure Served (c : Combat) (begun : Table) (rolls : List Roll) (ahead : List TokenRef)
    (now : Table) : Prop where
  split : rolls.map Roll.ref ++ lacking now ahead = (c.candidates begun).eraseDups
  shown : ∀ roll ∈ rolls, ∃ dice, roll.found.dice.Throws 20 [roll.natural] dice
  given : ∀ roll ∈ rolls, ∃ score, (begun.token roll.ref).score? .dexterity = some score ∧
    now.token roll.ref =
      { begun.token roll.ref with initiative := some (roll.natural + scoreModifier score) }
  kept : ∀ ref ∈ c.combatants, ref ∉ rolls.map Roll.ref → now.token ref = begun.token ref
  within : ahead ⊆ c.candidates begun

section

variable {c : Combat} {begun now later : Table} {more : List Roll} {ref : TokenRef}

theorem served_candidates (c : Combat) (begun : Table) :
    c.Served begun [] (c.candidates begun) begun := by
  refine ⟨?_, fun _ member => absurd member List.not_mem_nil,
    fun _ member => absurd member List.not_mem_nil, fun _ _ _ => rfl, List.Subset.refl _⟩
  have none : ∀ ref ∈ c.candidates begun, (begun.token ref).initiative.isNone = true := by
    intro ref candidate
    have waits := (mem_candidates.mp candidate).2
    simp only [awaitsRoll, Bool.and_eq_true] at waits
    exact waits.1.1
  rw [List.map_nil, List.nil_append, Combat.lacking, List.filter_eq_self.mpr none]

/-- Only candidates are rolled for. -/
theorem Served.candidate (served : c.Served begun rolls ahead now)
    (rolled : ref ∈ rolls.map Roll.ref) : ref ∈ c.candidates begun := by
  rw [← List.mem_eraseDups, ← served.split]
  exact List.mem_append_left _ rolled

/-- Whoever has been rolled for has an initiative. -/
theorem Served.initiative (served : c.Served begun rolls ahead now)
    (rolled : ref ∈ rolls.map Roll.ref) : (now.token ref).initiative ≠ none := by
  obtain ⟨roll, member, rfl⟩ := List.mem_map.mp rolled
  obtain ⟨score, -, written⟩ := served.given roll member
  rw [written]
  exact Option.some_ne_none _

theorem Served.listed (served : c.Served begun rolls ahead now) :
    ∀ ref ∈ ahead, ref < now.board.roster.length := by
  intro ref inAhead
  obtain ⟨combatant, waits⟩ := mem_candidates.mp (served.within inAhead)
  simp only [awaitsRoll, Bool.and_eq_true] at waits
  apply Table.listed_of_flagged
  by_cases rolled : ref ∈ rolls.map Roll.ref
  · obtain ⟨roll, member, rfl⟩ := List.mem_map.mp rolled
    obtain ⟨score, -, written⟩ := served.given roll member
    rw [written]
    exact waits.1.2
  · rw [served.kept ref combatant rolled]
    exact waits.1.2

theorem lacking_congr (same : ∀ ref ∈ ahead, later.token ref = now.token ref) :
    Combat.lacking later ahead = Combat.lacking now ahead := by
  rw [Combat.lacking, Combat.lacking]
  congr 1
  apply List.filter_congr
  intro ref inAhead
  rw [same ref inAhead]

/-- A rest in which no combatant is touched changes nothing for a batch. -/
theorem Served.undisturbed (served : c.Served begun rolls ahead now)
    (same : ∀ ref ∈ c.combatants, later.token ref = now.token ref) :
    c.Served begun rolls ahead later := by
  have combatant {ref : TokenRef} (candidate : ref ∈ c.candidates begun) : ref ∈ c.combatants :=
    (mem_candidates.mp candidate).1
  refine ⟨?_, served.shown, fun roll member => ?_, fun ref listed apart => ?_, served.within⟩
  · rw [lacking_congr fun ref inAhead => same ref (combatant (served.within inAhead))]
    exact served.split
  · rw [same roll.ref (combatant (served.candidate (List.mem_map_of_mem member)))]
    exact served.given roll member
  · rw [same ref listed]
    exact served.kept ref listed apart

/-- A batch that does not fail goes on to serve those ahead. -/
theorem Served.goesOn (served : c.Served begun rolls ahead now)
    (goes : Goes now ahead rolled more left) {count : Nat} (counted : left.1.count? = some count) :
    c.Served begun (rolls ++ more) left.1.ahead left.2 := by
  have leads := goes.rollsTo
  refine ⟨?_, fun roll member => ?_, fun roll member => ?_, fun ref listed apart => ?_,
    List.Subset.trans goes.suffix.subset served.within⟩
  · rw [List.map_append, List.append_assoc, goes.lacking served.listed counted]
    exact served.split
  · exact (List.mem_append.mp member).elim (served.shown roll) (leads.shown roll)
  · rcases List.mem_append.mp member with early | late
    · rcases leads.keeps roll.ref with same | ⟨lacks, -⟩
      · rw [same]
        exact served.given roll early
      · exact absurd lacks (served.initiative (List.mem_map_of_mem early))
    · have lacks := leads.lacks roll late
      rw [leads.found_eq roll late] at lacks
      have inAhead := goes.within roll late
      have combatant := (mem_candidates.mp (served.within inAhead)).1
      rw [← served.kept roll.ref combatant fun early => served.initiative early lacks]
      exact leads.token_of_mem (fun roll member => served.listed _ (goes.within roll member)) roll
        late
  · rw [List.map_append, List.mem_append, not_or] at apart
    rw [leads.token_of_not_mem apart.2]
    exact served.kept ref listed apart.1

end

/-! ## Batches that go on -/

theorem remark_of_remarkRolled (table : Table) (rolled : Nat) :
    table.RollsTo [] (remarkRolled table rolled) := by
  unfold remarkRolled
  split
  · exact .nil table
  · exact .remarked table _ _ _

theorem result_continueBatch (c : Combat) (table : Table) (ahead : List TokenRef) (rolled : Nat) :
    (c.continueBatch table ahead rolled).result = (rollAhead c.rollDelay table ahead rolled).1 := by
  unfold continueBatch
  split <;> rename_i found <;> rw [found]

/-- What a batch leaves is what its rolls lead to, but for a remark. -/
theorem table_continueBatch (c : Combat) (table : Table) (ahead : List TokenRef) (rolled : Nat) :
    (rollAhead c.rollDelay table ahead rolled).2.RollsTo []
      (c.continueBatch table ahead rolled).table := by
  unfold continueBatch
  split <;> rename_i found <;> rw [found]
  · exact remark_of_remarkRolled _ _
  · exact .nil _
  · exact .nil _

end Combat
end TurnScript
