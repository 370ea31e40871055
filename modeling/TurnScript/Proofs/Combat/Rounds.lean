import Mathlib.Data.List.Nodup
import Mathlib.Data.List.Perm.Basic
import TurnScript.Proofs.Combat.Melee

/-!
# Turns of a melee

While all combatants stay alive and nobody joins, every combatant should have one turn in every
round. The combat keeps this law as long as no errand for a turn is called while another one rests,
and no errand fails on the way to the next turn. An errand that comes to the end of the order moves
the mark of whose turn it is before it rests, and announces the turn only when it has rested. So
whoever calls for a turn in between, or after a roll there has failed, goes on from a turn that has
not been announced.
-/

namespace TurnScript

namespace Table

/-- A table on which the same tokens are alive. -/
def KeepsLives (before after : Table) : Prop :=
  ∀ ref, (after.token ref).alive = (before.token ref).alive

theorem KeepsLives.refl (table : Table) : table.KeepsLives table := fun _ => rfl

theorem KeepsLives.trans {first second third : Table} (early : first.KeepsLives second)
    (late : second.KeepsLives third) : first.KeepsLives third :=
  fun ref => (late ref).trans (early ref)

theorem keepsLives_remark (table : Table) (source : String) (level : Level) (text : String) :
    table.KeepsLives (table.remark source level text) := fun _ => rfl

end Table

/-- Whether an errand is to announce a turn in the end. -/
def Errand.takesTurn : Errand → Bool
  | .start | .next => true
  | .roll | .join => false

namespace Combat

/-- Whether every combatant is alive. -/
def allAlive (c : Combat) (table : Table) : Bool :=
  c.combatants.all fun ref => (table.token ref).alive

theorem allAlive_of_keepsLives {c : Combat} {before after : Table}
    (alive : c.allAlive before = true) (lives : before.KeepsLives after) :
    c.allAlive after = true := by
  rw [allAlive, List.all_eq_true] at alive ⊢
  intro ref listed
  rw [lives ref]
  exact alive ref listed

/-- Where everyone is alive, the next place is the next living one. -/
theorem livingFrom?_of_allAlive {c : Combat} {table : Table} (alive : c.allAlive table = true)
    (place : Nat) :
    c.livingFrom? table place = if place < c.combatants.length then some place else none := by
  rw [allAlive, List.all_eq_true] at alive
  cases ahead : c.combatants.drop place with
  | nil =>
    have passed : ¬ place < c.combatants.length := by
      simpa using List.drop_eq_nil_iff.mp ahead
    simp [livingFrom?, ahead, passed]
  | cons ref rest =>
    have within : place < c.combatants.length := by
      refine Nat.lt_of_not_le fun passed => ?_
      simp [List.drop_eq_nil_iff.mpr passed] at ahead
    have first : (table.token ref).alive = true :=
      alive ref (List.mem_of_mem_drop (ahead ▸ List.mem_cons_self))
    simp [livingFrom?, ahead, within, List.findIdx?_cons, first]

theorem aliveAt_of_allAlive {c : Combat} {table : Table} (alive : c.allAlive table = true)
    {place : Nat} (within : place < c.combatants.length) : c.aliveAt table place = true := by
  rw [allAlive, List.all_eq_true] at alive
  simpa [aliveAt, within] using alive _ (List.getElem_mem within)

/-- Sorting leaves combatants as they are that are in order already. -/
theorem sort_of_pairwise {c : Combat} {table : Table}
    (ordered : c.combatants.Pairwise fun a b => initiativeBefore (table.token a).initiative
      (table.token b).initiative = true) : c.sort table = c := by
  rw [sort, List.mergeSort_of_pairwise ordered]

theorem keepsLives_setInitiative (table : Table) (ref : TokenRef) (total : Int) :
    table.KeepsLives (setInitiative table ref total) := by
  intro other
  change ((table.board.change ref _).token other).alive = (table.board.token other).alive
  rw [Board.token_change]
  split <;> rfl

theorem keepsLives_rollAhead (delay : Int) (table : Table) (ahead : List TokenRef)
    (rolled : Nat) : table.KeepsLives (rollAhead delay table ahead rolled).2 := by
  fun_induction rollAhead delay table ahead rolled with
  | case1 | case3 => exact .refl _
  | case2 _ _ _ _ _ _ inductionHypothesis => exact inductionHypothesis
  | case4 => exact fun _ => rfl
  | case5 table ref ahead _ _ _ _ _ total dice
  | case6 table ref ahead _ _ _ _ _ total dice =>
    exact .trans (fun _ => rfl) (keepsLives_setInitiative { table with dice } ref total)
  | case7 table ref ahead _ _ _ _ _ total dice _ _ _ inductionHypothesis =>
    have rolled := keepsLives_setInitiative { table with dice } ref total
    exact .trans (.trans (fun _ => rfl) rolled) inductionHypothesis

/-- What a batch leaves as it is: the lives of all tokens, and everything about the combat but the
mark that a batch is under way. -/
structure Spares {α : Type} (c : Combat) (table : Table) (step : Step α) : Prop where
  combat : ∃ rolling, step.combat = { c with rolling }
  lives : table.KeepsLives step.table

theorem continueBatch_spares (c : Combat) (table : Table) (ahead : List TokenRef) (rolled : Nat) :
    c.Spares table (c.continueBatch table ahead rolled) := by
  have lives := keepsLives_rollAhead c.rollDelay table ahead rolled
  unfold continueBatch
  split <;> rename_i found <;> rw [found] at lives
  · refine ⟨⟨false, rfl⟩, lives.trans ?_⟩
    unfold remarkRolled
    split
    · exact .refl _
    · exact Table.keepsLives_remark _ _ _ _
  · exact ⟨⟨false, rfl⟩, lives⟩
  · exact ⟨⟨c.rolling, rfl⟩, lives⟩

theorem beginBatch_spares (c : Combat) (table : Table) : c.Spares table (c.beginBatch table) := by
  unfold beginBatch
  split
  · exact ⟨⟨c.rolling, rfl⟩, table.keepsLives_remark _ _ _⟩
  · obtain ⟨⟨rolling, same⟩, lives⟩ :=
      continueBatch_spares { c with rolling := true } table (c.candidates table) 0
    exact ⟨⟨rolling, same⟩, lives⟩

/-! ### What an errand comes to -/

/-- How an errand for the next turn goes on where it looks at a place: it announces the turn of
that place, rests, or fails. -/
inductive Reaches (c : Combat) : Step Stage → Prop
  | turn (rolling : Bool) (table : Table) (ref : TokenRef)
      (current : c.combatants[c.turn]? = some ref) :
      Reaches c ⟨{ c with rolling }, table, .announcing ref⟩
  | pause (rolling : Bool) (table : Table) (ahead : List TokenRef) (rolled : Nat) :
      Reaches c ⟨{ c with rolling }, table, .resting ahead rolled⟩
  | mishap (rolling : Bool) (table : Table) (mishap : Mishap) :
      Reaches c ⟨{ c with rolling }, table, .ended (.raised mishap)⟩

/-- How an errand that starts a combat goes on: it opens the combat with the combatants in some
order, rests, or fails. -/
inductive Opens (c : Combat) : Step Stage → Prop
  | turn (rolling : Bool) (table : Table) (ref : TokenRef) (others : List TokenRef)
      (perm : (ref :: others).Perm c.combatants) :
      Opens c
        ⟨{ c with combatants := ref :: others, round := 1, turn := 0, started := true, rolling },
          table, .announcing ref⟩
  | nobody (rolling : Bool) (table : Table) (deserted : c.combatants = []) :
      Opens c ⟨{ c with combatants := [], round := 1, turn := 0, started := true, rolling },
        table, .ended (.turnOf none)⟩
  | pause (rolling : Bool) (table : Table) (ahead : List TokenRef) (rolled : Nat) :
      Opens c ⟨{ c with rolling }, table, .resting ahead rolled⟩
  | mishap (rolling : Bool) (table : Table) (mishap : Mishap) :
      Opens c ⟨{ c with rolling }, table, .ended (.raised mishap)⟩

theorem announce_of_current {c : Combat} {ref : TokenRef} (started : c.started = true)
    (current : c.combatants[c.turn]? = some ref) (table : Table) :
    ∃ after, c.announce table = ⟨c, after, .announcing ref⟩ := by
  simp [announce, Combat.current, started, current]

/-- What an errand for the next turn does when it has come to a place and the batch that precedes
it has come to something. -/
def arrive (rounds : Nat) : Step Batch → Step Stage
  | ⟨c, table, .failed mishap⟩ => ⟨c, table, .ended (.raised mishap)⟩
  | ⟨c, table, .paused ahead rolled⟩ => ⟨c, table, .resting ahead rolled⟩
  | ⟨c, table, .finished _⟩ =>
    if c.aliveAt table c.turn then c.announce table else seek rounds c table

theorem afterBatch_next (batch : Step Batch) :
    afterBatch .next batch = arrive enoughRounds batch := by
  obtain ⟨c, table, _ | _ | _⟩ := batch <;> rfl

theorem arrive_reaches {c : Combat} {table : Table} {batch : Step Batch} (rounds : Nat)
    (started : c.started = true) (alive : c.allAlive table = true)
    (within : c.turn < c.combatants.length) (spared : c.Spares table batch) :
    c.Reaches (arrive rounds batch) := by
  obtain ⟨after, table', result⟩ := batch
  obtain ⟨⟨rolling, same⟩, lives⟩ := spared
  obtain rfl : after = { c with rolling } := same
  cases result with
  | failed mishap => exact .mishap rolling table' mishap
  | paused ahead rolled => exact .pause rolling table' ahead rolled
  | finished rolled =>
    have living : ({ c with rolling } : Combat).aliveAt table' c.turn = true :=
      aliveAt_of_allAlive (allAlive_of_keepsLives (c := { c with rolling }) alive lives) within
    have current : c.combatants[c.turn]? = some c.combatants[c.turn] :=
      List.getElem?_eq_getElem within
    obtain ⟨final, announced⟩ :=
      announce_of_current (c := { c with rolling }) started current table'
    simp only [arrive, living, ↓reduceIte, announced]
    exact .turn rolling final _ current

theorem afterBatch_start_opens {c : Combat} {table : Table} {batch : Step Batch}
    (spared : c.Spares table batch) : c.Opens (afterBatch .start batch) := by
  obtain ⟨after, table', result⟩ := batch
  obtain ⟨⟨rolling, same⟩, lives⟩ := spared
  obtain rfl : after = { c with rolling } := same
  cases result with
  | failed mishap => exact .mishap rolling table' mishap
  | paused ahead rolled => exact .pause rolling table' ahead rolled
  | finished rolled =>
    have perm := sort_perm { c with rolling } table'
    rw [afterBatch, opening]
    cases sorted : (({ c with rolling } : Combat).sort table').combatants with
    | nil =>
      rw [sorted] at perm
      have deserted : c.combatants = [] := perm.nil_eq.symm
      rw [sort] at sorted
      simp only [sort, sorted, announce, current, ↓reduceIte, List.getElem?_nil]
      exact .nobody rolling _ deserted
    | cons ref others =>
      rw [sorted] at perm
      rw [sort] at sorted
      simp only [sort, sorted, announce, current, ↓reduceIte, List.getElem?_cons_zero]
      exact .turn rolling _ ref others perm

/-- An errand that is not for a turn leaves the turn as it is and announces none. -/
theorem afterBatch_aside {c : Combat} {table : Table} {batch : Step Batch} {errand : Errand}
    (aside : errand.takesTurn = false) (spared : c.Spares table batch) :
    (∃ rolling, (afterBatch errand batch).combat = { c with rolling }) ∧
      (afterBatch errand batch).result.announcement? (afterBatch errand batch).combat = none := by
  obtain ⟨after, table', result⟩ := batch
  obtain ⟨⟨rolling, same⟩, lives⟩ := spared
  obtain rfl : after = { c with rolling } := same
  cases errand with
  | start | next => cases aside
  | roll | join => cases result <;> exact ⟨⟨rolling, rfl⟩, rfl⟩

theorem seek_of_living {c : Combat} {table : Table} {place : Nat} (rounds : Nat)
    (found : c.livingFrom? table (c.turn + 1) = some place) :
    seek (rounds + 1) c table = { c with turn := place }.announce table := by
  rw [seek, found]

/-- Within a round, an errand for the next turn announces the next place at once. -/
theorem seek_within {c : Combat} {table : Table} (started : c.started = true)
    (alive : c.allAlive table = true) (within : c.turn + 1 < c.combatants.length) (rounds : Nat) :
    ∃ after, seek (rounds + 1) c table =
      ⟨{ c with turn := c.turn + 1 }, after, .announcing c.combatants[c.turn + 1]⟩ := by
  have current : c.combatants[c.turn + 1]? = some c.combatants[c.turn + 1] :=
    List.getElem?_eq_getElem within
  obtain ⟨after, announced⟩ := announce_of_current (c := { c with turn := c.turn + 1 })
    started current table
  have found : c.livingFrom? table (c.turn + 1) = some (c.turn + 1) := by
    rw [livingFrom?_of_allAlive alive, if_pos within]
  exact ⟨after, (seek_of_living rounds found).trans announced⟩

/-- A combat that has come to the first place of a new round. -/
def wrapped (c : Combat) : Combat := { c with turn := 0, round := c.round + 1 }

/-- The batch of rolls with which a new round begins. -/
def newRound (c : Combat) (table : Table) : Step Batch :=
  c.wrapped.beginBatch (table.remark "combat" .info ("Round " ++ toString (c.round + 1)))

theorem seek_of_none {c : Combat} {table : Table} (rounds : Nat)
    (none : c.livingFrom? table (c.turn + 1) = none) :
    seek (rounds + 1) c table = arrive rounds (c.newRound table) := by
  rw [seek, none, newRound, wrapped]
  simp only
  generalize beginBatch _ _ = batch
  obtain ⟨after, table', _ | _ | _⟩ := batch <;> rfl

/-- After the last place, an errand for the next turn looks at the first one of a new round. -/
theorem seek_wraps {c : Combat} {table : Table} (started : c.started = true)
    (alive : c.allAlive table = true) (inhabited : 0 < c.combatants.length)
    (last : ¬ c.turn + 1 < c.combatants.length) (rounds : Nat) :
    c.wrapped.Reaches (seek (rounds + 1) c table) := by
  have still : c.wrapped.allAlive
      (table.remark "combat" .info ("Round " ++ toString (c.round + 1))) = true := alive
  have none : c.livingFrom? table (c.turn + 1) = none := by
    rw [livingFrom?_of_allAlive alive, if_neg last]
  rw [seek_of_none rounds none]
  exact arrive_reaches rounds started still inhabited (beginBatch_spares c.wrapped _)

theorem next_of_allAlive {c : Combat} {table : Table} (started : c.started = true)
    (alive : c.allAlive table = true) (inhabited : 0 < c.combatants.length) :
    c.next table = (.next, seek enoughRounds c table) := by
  have someone : c.anyAlive table = true := by
    rw [allAlive, List.all_eq_true] at alive
    rw [anyAlive, List.any_eq_true]
    exact ⟨_, List.getElem_mem inhabited, alive _ (List.getElem_mem inhabited)⟩
  simp [next, started, someone]

end Combat

/-! ### The turns that are due -/

/-- The turn that comes after `count` others when every place of an order has one in every
round. -/
def due (order : List TokenRef) (count : Nat) : Announcement :=
  ⟨count / order.length + 1, count % order.length, order.getD (count % order.length) default⟩

/-- The first turns of a combat in which every place of an order has one in every round. -/
def schedule (order : List TokenRef) (count : Nat) : List Announcement :=
  (List.range count).map (due order)

theorem schedule_succ (order : List TokenRef) (count : Nat) :
    schedule order (count + 1) = schedule order count ++ [due order count] := by
  simp [schedule, List.range_succ]

theorem due_of_place {order : List TokenRef} {place : Nat} {ref : TokenRef}
    (listed : order[place]? = some ref) (round : Nat) :
    due order (round * order.length + place) = ⟨round + 1, place, ref⟩ := by
  obtain ⟨within, found⟩ := List.getElem?_eq_some_iff.mp listed
  have inhabited : 0 < order.length := Nat.zero_lt_of_lt within
  have rounds : (round * order.length + place) / order.length = round := by
    rw [Nat.mul_comm, Nat.mul_add_div inhabited, Nat.div_eq_of_lt within, Nat.add_zero]
  have rest : (round * order.length + place) % order.length = place := by
    rw [Nat.mul_comm, Nat.mul_add_mod, Nat.mod_eq_of_lt within]
  simp [due, rounds, rest, listed]

namespace Melee

/-- The errands for a turn among those that rest. -/
def turners (resting : List Resting) : List Errand :=
  (resting.map (·.errand)).filter Errand.takesTurn

/-- Whether all combatants are alive and what happens is a call for a turn or for rolls, the end
of a rest, or a change of the table; nobody joins. -/
def isPeaceful (m : Melee) (incident : Incident) : Bool :=
  m.combat.allAlive m.table && match incident with
    | .roll | .next | .rested _ | .disturbed _ => true
    | .start | .join _ => false

/-- Whether no errand for a turn is called while another one rests, and none fails on the way to
the next turn. -/
def isOrderly (m : Melee) (incident : Incident) : Bool :=
  (incident != .next || (turners m.resting).isEmpty) &&
    (m.piece? incident).all fun (errand, step) => errand != .next || !step.result.isMishap

/-- Where a melee stands whose turns have come as they are due. -/
inductive Stands (m : Melee) : Prop
  /-- It has not started. -/
  | gathered (unstarted : m.combat.started = false) (silent : m.turns = [])
      (waiting : turners m.resting = [] ∨ turners m.resting = [.start])
  /-- It has started without anyone. -/
  | deserted (started : m.combat.started = true) (nobody : m.combat.combatants = [])
      (silent : m.turns = []) (waiting : turners m.resting = [])
  /-- The turn of the current combatant has been announced. -/
  | turned (started : m.combat.started = true) (round : Nat)
      (counted : m.combat.round = round + 1)
      (within : m.combat.turn < m.combat.combatants.length)
      (turns : m.turns = schedule m.combat.combatants
        (round * m.combat.combatants.length + m.combat.turn + 1))
      (waiting : turners m.resting = [])
  /-- An errand rests before the first turn of a round. -/
  | wrapping (started : m.combat.started = true) (round : Nat)
      (counted : m.combat.round = round + 1) (first : m.combat.turn = 0)
      (inhabited : 0 < m.combat.combatants.length)
      (turns : m.turns = schedule m.combat.combatants (round * m.combat.combatants.length))
      (waiting : turners m.resting = [.next])

theorem turners_append (resting more : List Resting) :
    turners (resting ++ more) = turners resting ++ turners more := by
  simp [turners]

/-- An errand that is taken up no longer rests, and all others do. -/
theorem turners_eraseIdx_perm {resting : List Resting} {place : Nat} {r : Resting}
    (found : resting[place]? = some r) :
    (turners [r] ++ turners (resting.eraseIdx place)).Perm (turners resting) := by
  obtain ⟨within, rfl⟩ := List.getElem?_eq_some_iff.mp found
  rw [← turners_append]
  exact ((List.getElem_cons_eraseIdx_perm within).map _).filter _

/-- An errand for a turn that has come to something rests, or no longer counts. -/
theorem turners_resting? (errand : Errand) (stage : Combat.Stage) :
    turners (stage.resting? errand).toList =
      if errand.takesTurn && (stage.resting? errand).isSome then [errand] else [] := by
  cases errand <;> cases stage <;> rfl

/-- A melee in which a given order, or another one of the same combatants, is in step with what is
due. -/
structure InStep (order : List TokenRef) (m : Melee) : Prop where
  perm : m.combat.combatants.Perm order
  stands : m.Stands

/-- Whether a batch is under way does not matter to where a melee stands, nor does the table. -/
theorem InStep.of_same {order : List TokenRef} {before after : Melee} (inStep : before.InStep order)
    (same : ∃ rolling, after.combat = { before.combat with rolling })
    (turns : after.turns = before.turns)
    (waiting : turners after.resting = turners before.resting) : after.InStep order := by
  obtain ⟨perm, stands⟩ := inStep
  obtain ⟨c, table, resting, announced⟩ := after
  obtain ⟨rolling, rfl⟩ := same
  subst turns
  refine ⟨perm, ?_⟩
  cases stands with
  | gathered unstarted silent waits => exact .gathered unstarted silent (waiting ▸ waits)
  | deserted started nobody silent waits =>
    exact .deserted started nobody silent (waiting.trans waits)
  | turned started round counted within scheduled waits =>
    exact .turned started round counted within scheduled (waiting.trans waits)
  | wrapping started round counted first inhabited scheduled waits =>
    exact .wrapping started round counted first inhabited scheduled (waiting.trans waits)

/-- A piece of an errand that is not for a turn keeps in step. -/
theorem InStep.aside {order : List TokenRef} {m : Melee} {others : List Resting}
    {batch : Combat.Step Combat.Batch} {errand : Errand} (inStep : m.InStep order)
    (besides : errand.takesTurn = false) (alike : turners others = turners m.resting)
    (spared : m.combat.Spares m.table batch) :
    (m.settle others errand (Combat.afterBatch errand batch)).InStep order := by
  obtain ⟨same, silent⟩ := Combat.afterBatch_aside besides spared
  refine inStep.of_same same ?_ ?_
  · simp [settle, silent]
  · rw [settle, turners_append, turners_resting?, besides, alike]
    exact List.append_nil _

/-- An announcement of the turn that is due keeps in step. -/
theorem InStep.announced {order : List TokenRef} {m : Melee} {c : Combat} {others : List Resting}
    {ref : TokenRef} (round : Nat) (perm : c.combatants.Perm order) (started : c.started = true)
    (counted : c.round = round + 1) (current : c.combatants[c.turn]? = some ref)
    (scheduled : m.turns = schedule c.combatants (round * c.combatants.length + c.turn))
    (alone : turners others = []) (errand : Errand) (table : Table) :
    (m.settle others errand ⟨c, table, .announcing ref⟩).InStep order := by
  have waiting : turners (m.settle others errand ⟨c, table, .announcing ref⟩).resting = [] := by
    simp [settle, alone, Combat.Stage.resting?]
  have within : c.turn < c.combatants.length := (List.getElem?_eq_some_iff.mp current).1
  refine ⟨perm, .turned started round counted within ?_ waiting⟩
  calc m.turns ++ [⟨c.round, c.turn, ref⟩]
    _ = schedule c.combatants (round * c.combatants.length + c.turn) ++
        [due c.combatants (round * c.combatants.length + c.turn)] := by
      rw [scheduled, due_of_place current, counted]
    _ = schedule c.combatants (round * c.combatants.length + c.turn + 1) :=
      (schedule_succ _ _).symm

/-- A combat that has not started is in step once it has been opened. -/
theorem InStep.start {order : List TokenRef} {m : Melee} {others : List Resting}
    {step : Combat.Step Combat.Stage} (perm : m.combat.combatants.Perm order)
    (unstarted : m.combat.started = false) (silent : m.turns = []) (alone : turners others = [])
    (opens : m.combat.Opens step) : (m.settle others .start step).InStep order := by
  have waiting : turners (m.settle others .start step).resting =
      turners (step.result.resting? .start).toList := by
    rw [settle, turners_append, alone, List.nil_append]
  have turns : (m.settle others .start step).turns =
      (step.result.announcement? step.combat).toList := by
    rw [settle, silent, List.nil_append]
  rw [turners_resting?] at waiting
  cases opens with
  | turn rolling table ref remaining shuffled =>
    refine .announced 0 (shuffled.trans perm) rfl rfl List.getElem?_cons_zero ?_ alone .start table
    simpa [schedule] using silent
  | nobody rolling table deserted =>
    exact ⟨deserted ▸ perm, .deserted rfl rfl turns waiting⟩
  | pause rolling table ahead rolled => exact ⟨perm, .gathered unstarted turns (.inr waiting)⟩
  | mishap rolling table mishap => exact ⟨perm, .gathered unstarted turns (.inl waiting)⟩

/-- An errand that looks at the first place of a new round keeps in step, unless it fails. -/
theorem InStep.wrap {order : List TokenRef} {m : Melee} {c : Combat} {others : List Resting}
    {step : Combat.Step Combat.Stage} {round : Nat} (perm : c.combatants.Perm order)
    (started : c.started = true) (counted : c.round = round + 1) (first : c.turn = 0)
    (inhabited : 0 < c.combatants.length)
    (scheduled : m.turns = schedule c.combatants (round * c.combatants.length))
    (alone : turners others = []) (reaches : c.Reaches step)
    (sound : step.result.isMishap = false) : (m.settle others .next step).InStep order := by
  cases reaches with
  | turn rolling table ref current =>
    refine .announced (c := { c with rolling }) round perm started counted current ?_ alone .next
      table
    rw [scheduled]
    simp [first]
  | pause rolling table ahead rolled =>
    refine ⟨perm, .wrapping started round counted first inhabited ?_ ?_⟩
    · simp [settle, Combat.Stage.announcement?, scheduled]
    · rw [settle, turners_append, alone, turners_resting?]
      rfl
  | mishap rolling table mishap => cases sound

/-- A call for the next turn keeps in step if no errand for a turn rests. -/
theorem InStep.next {order : List TokenRef} {m : Melee} (inStep : m.InStep order)
    (alive : m.combat.allAlive m.table = true) (alone : turners m.resting = [])
    (sound : ((m.combat.next m.table).1 != .next ||
      !(m.combat.next m.table).2.result.isMishap) = true) :
    (m.effect .next).InStep order := by
  obtain ⟨perm, stands⟩ := inStep
  change (m.settle m.resting (m.combat.next m.table).1 (m.combat.next m.table).2).InStep order
  cases stands with
  | gathered unstarted silent waits =>
    have called : m.combat.next m.table = (.start, m.combat.start m.table) := by
      simp [Combat.next, unstarted]
    rw [called]
    exact .start perm unstarted silent alone
      (Combat.afterBatch_start_opens (m.combat.beginBatch_spares m.table))
  | deserted started nobody silent waits =>
    have called : m.combat.next m.table = (.next, ⟨m.combat, m.table, .ended (.turnOf none)⟩) := by
      simp [Combat.next, started, Combat.anyAlive, nobody]
    rw [called]
    refine InStep.of_same ⟨perm, .deserted started nobody silent waits⟩ ⟨_, rfl⟩ ?_ ?_
    · simp [settle, Combat.Stage.announcement?]
    · simp [settle, Combat.Stage.resting?]
  | turned started round counted within scheduled waits =>
    rw [Combat.next_of_allAlive started alive (Nat.zero_lt_of_lt within)] at sound ⊢
    by_cases ahead : m.combat.turn + 1 < m.combat.combatants.length
    · obtain ⟨table, sought⟩ := Combat.seek_within started alive ahead 2
      rw [Combat.enoughRounds, sought]
      exact .announced (c := { m.combat with turn := m.combat.turn + 1 }) round perm started counted
        (List.getElem?_eq_getElem ahead) scheduled alone .next table
    · have reaches := Combat.seek_wraps started alive (Nat.zero_lt_of_lt within) ahead 2
      have again : m.combat.wrapped.round = (round + 1) + 1 := congrArg (· + 1) counted
      refine .wrap (c := m.combat.wrapped) perm started again rfl (Nat.zero_lt_of_lt within) ?_ alone reaches ?_
      · have full : round * m.combat.combatants.length + m.combat.turn + 1 =
            (round + 1) * m.combat.combatants.length := by
          rw [Nat.succ_mul]
          omega
        rw [scheduled, full]
        rfl
      · simpa using sound
  | wrapping started round counted first inhabited scheduled waits =>
    rw [alone] at waits
    cases waits

/-- An errand that is taken up after its rest keeps in step, unless it fails on the way to the next
turn. -/
theorem InStep.rested {order : List TokenRef} {m : Melee} {place : Nat} {r : Resting}
    (inStep : m.InStep order) (alive : m.combat.allAlive m.table = true)
    (found : m.resting[place]? = some r)
    (sound : (r.errand != .next ||
      !(m.combat.rested m.table r.errand r.ahead r.rolled).result.isMishap) = true) :
    (m.settle (m.resting.eraseIdx place) r.errand
      (m.combat.rested m.table r.errand r.ahead r.rolled)).InStep order := by
  have spared := m.combat.continueBatch_spares m.table r.ahead r.rolled
  have left := turners_eraseIdx_perm found
  cases turner : r.errand.takesTurn with
  | false =>
    have alike : turners (m.resting.eraseIdx place) = turners m.resting := by
      have none : turners [r] = [] := by simp [turners, turner]
      rw [none, List.nil_append] at left
      cases inStep.stands with
      | gathered _ _ waits =>
        rcases waits with waits | waits <;> rw [waits] at left ⊢
        · exact left.eq_nil
        · exact left.eq_singleton
      | deserted _ _ _ waits | turned _ _ _ _ _ waits => rw [waits] at left ⊢; exact left.eq_nil
      | wrapping _ _ _ _ _ _ waits => rw [waits] at left ⊢; exact left.eq_singleton
    exact inStep.aside turner alike spared
  | true =>
    have own : turners [r] = [r.errand] := by simp [turners, turner]
    rw [own] at left
    obtain ⟨perm, stands⟩ := inStep
    cases stands with
    | gathered unstarted silent waits =>
      rcases waits with waits | waits <;> rw [waits] at left
      · cases left.eq_nil
      · obtain ⟨same, alone⟩ := List.cons.inj left.eq_singleton
        rw [same]
        exact .start perm unstarted silent alone (Combat.afterBatch_start_opens spared)
    | deserted _ _ _ waits | turned _ _ _ _ _ waits =>
      rw [waits] at left
      cases left.eq_nil
    | wrapping started round counted first inhabited scheduled waits =>
      rw [waits] at left
      obtain ⟨same, alone⟩ := List.cons.inj left.eq_singleton
      rw [same] at sound ⊢
      have reaches : m.combat.Reaches (m.combat.rested m.table .next r.ahead r.rolled) := by
        rw [Combat.rested, Combat.afterBatch_next]
        exact Combat.arrive_reaches _ started alive (first ▸ inhabited) spared
      have sound : (m.combat.rested m.table .next r.ahead r.rolled).result.isMishap = false := by
        simpa using sound
      exact .wrap perm started counted first inhabited scheduled alone reaches sound

/-- Whatever happens peacefully and in good order keeps in step. -/
theorem InStep.effect {order : List TokenRef} {m : Melee} {incident : Incident}
    (inStep : m.InStep order) (peaceful : m.isPeaceful incident = true)
    (orderly : m.isOrderly incident = true) : (m.effect incident).InStep order := by
  simp only [isPeaceful, Bool.and_eq_true] at peaceful
  simp only [isOrderly, Bool.and_eq_true] at orderly
  obtain ⟨alive, admitted⟩ := peaceful
  obtain ⟨alone, sound⟩ := orderly
  cases incident with
  | start | join => cases admitted
  | roll => exact inStep.aside rfl rfl (m.combat.beginBatch_spares m.table)
  | next => exact inStep.next alive (by simpa using alone) sound
  | rested place =>
    cases found : m.resting[place]? with
    | none => simpa [Melee.effect, piece?, found] using inStep
    | some r =>
      simp only [piece?, found, Option.map_some, Option.all_some] at sound
      have taken := inStep.rested alive found sound
      simpa [Melee.effect, piece?, found, others] using taken
  | disturbed table => exact inStep.of_same ⟨_, rfl⟩ rfl rfl

/-- Two combatants that roll for their initiative, with a rest between their rolls. -/
def duelists : Melee where
  combat := { combatants := [0, 1], rollDelay := 100 }
  table.board.roster := [{ id := "hero", name := "hero", autoInitiative := true },
    { id := "orc", name := "orc", autoInitiative := true }]
  table.dice.source := .listed [15, 10, 12, 8]

/-- Both have rolled, and the combat is about to be opened. -/
def assembled : Combat.Step Combat.Batch :=
  (duelists.effect .next).combat.continueBatch (duelists.effect .next).table [1] 1

/-- The combat has been opened with the combatants as they stand. -/
def opened : Melee :=
  (duelists.effect .next).settle [] .start
    (Combat.announce { assembled.combat with round := 1, turn := 0, started := true }
      (assembled.table.remark "combat" .info "Combat started: hero (15), orc (10)"))

theorem after_opened : duelists.after [.next, .rested 0] = opened := by
  change (duelists.effect .next).settle [] .start (Combat.opening assembled.combat
    assembled.table) = _
  rw [Combat.opening, Combat.sort_of_pairwise (by decide +kernel)]
  rfl

/-- The two turns of the first round have come, the initiative of both has been cleared, and the
next call rests after the first new roll. -/
def secondRound : List Incident :=
  let m := opened.effect .next
  [.next, .disturbed (m.combat.reset m.table).2, .next]

end Melee
end TurnScript
