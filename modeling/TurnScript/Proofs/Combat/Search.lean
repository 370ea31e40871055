import TurnScript.Proofs.Combat.Batches
import TurnScript.Proofs.Combat.Living

/-!
# The search for the next turn

An errand for the next turn looks at one place after the other. After the last one it begins a new
round, for which it rolls, and looks at the first place. Whether anyone is alive it asks once, when
it is called. That may no longer hold when it goes on after a rest: with nobody alive it goes
through rounds without end, and nobody else comes to do anything meanwhile.

`seek` gives up such a search after a few rounds. Here its rounds are taken apart into single looks,
so that what it gives up is seen to be a search that has no end.
-/

namespace TurnScript

namespace Combat

/-! ### Places -/

theorem livingFrom?_of_alive {c : Combat} {table : Table} {place : Nat}
    (alive : c.aliveAt table place = true) : c.livingFrom? table place = some place := by
  obtain ⟨ref, listed, living⟩ := Option.any_eq_true _ _ |>.mp alive
  obtain ⟨within, rfl⟩ := List.getElem?_eq_some_iff.mp listed
  rw [livingFrom?, List.drop_eq_getElem_cons within, List.findIdx?_cons, if_pos living]
  rfl

theorem livingFrom?_of_le {c : Combat} {table : Table} {place : Nat}
    (past : c.combatants.length ≤ place) : c.livingFrom? table place = none := by
  simp [livingFrom?, List.drop_eq_nil_of_le past]

theorem livingFrom?_of_dead {c : Combat} {table : Table} {place : Nat}
    (dead : c.aliveAt table place = false) :
    c.livingFrom? table place = c.livingFrom? table (place + 1) := by
  by_cases within : place < c.combatants.length
  · rw [aliveAt, List.getElem?_eq_getElem within, Option.any_some] at dead
    rw [livingFrom?, List.drop_eq_getElem_cons within, List.findIdx?_cons, dead,
      if_neg Bool.false_ne_true, livingFrom?, Option.map_map]
    congr 1
    funext offset
    simp only [Function.comp_apply]
    omega
  · rw [livingFrom?_of_le (by omega), livingFrom?_of_le (by omega)]

theorem livingFrom?_zero_eq_none {c : Combat} {table : Table} :
    c.livingFrom? table 0 = none ↔ c.anyAlive table = false := by
  simp [livingFrom?, anyAlive, List.findIdx?_eq_none_iff]

theorem anyAlive_of_keepsLives {c : Combat} {before after : Table}
    (lives : before.KeepsLives after) : c.anyAlive after = c.anyAlive before :=
  congrArg c.combatants.any (funext lives)

theorem aliveAt_of_nobody {c : Combat} {table : Table} (nobody : c.anyAlive table = false)
    (place : Nat) : c.aliveAt table place = false := by
  rw [anyAlive, List.any_eq_false] at nobody
  rw [aliveAt, Option.any_eq_false]
  exact fun ref listed => Bool.eq_false_iff.mpr (nobody ref (List.mem_of_getElem? listed))

/-! ### Rounds -/

theorem newRound_spares (c : Combat) (table : Table) : c.wrapped.Spares table (c.newRound table) :=
  have spared := beginBatch_spares c.wrapped
    (table.remark "combat" .info ("Round " ++ toString (c.round + 1)))
  ⟨spared.combat, spared.lives⟩

/-- What a search comes to: the turn of someone who is alive, a rest, a mishap, or nothing. -/
inductive Finds (c : Combat) : Step Stage → Prop
  | turn (place round : Nat) (rolling : Bool) (table : Table) (ref : TokenRef)
      (listed : c.combatants[place]? = some ref) (alive : (table.token ref).alive = true) :
      Finds c ⟨{ c with turn := place, round, rolling }, table, .announcing ref⟩
  | rest (place round : Nat) (rolling : Bool) (table : Table) (ahead : List TokenRef)
      (rolled : Nat) :
      Finds c ⟨{ c with turn := place, round, rolling }, table, .resting ahead rolled⟩
  | mishap (place round : Nat) (rolling : Bool) (table : Table) (mishap : Mishap) :
      Finds c ⟨{ c with turn := place, round, rolling }, table, .ended (.raised mishap)⟩
  | nothing (place round : Nat) (rolling : Bool) (table : Table) :
      Finds c ⟨{ c with turn := place, round, rolling }, table, .adrift⟩

/-- A search that has got somewhere comes to nothing that it would not come to from the start. -/
theorem Finds.of_moved {c : Combat} (place round : Nat) (rolling : Bool) {step : Step Stage}
    (finds : Finds { c with turn := place, round, rolling } step) : c.Finds step := by
  cases finds with
  | turn place round rolling table ref listed alive =>
    exact .turn place round rolling table ref listed alive
  | rest place round rolling table ahead rolled =>
    exact .rest place round rolling table ahead rolled
  | mishap place round rolling table mishap => exact .mishap place round rolling table mishap
  | nothing place round rolling table => exact .nothing place round rolling table

/-- A search changes nothing about a combat but the place, the round and whether a batch is under
way. -/
theorem Finds.moved {c : Combat} {step : Step Stage} (finds : c.Finds step) :
    ∃ place round rolling, step.combat = { c with turn := place, round, rolling } := by
  cases finds with
  | turn | rest | mishap | nothing => exact ⟨_, _, _, rfl⟩

theorem finds_announce {c : Combat} {table : Table} (started : c.started = true)
    (alive : c.aliveAt table c.turn = true) : c.Finds (c.announce table) := by
  obtain ⟨ref, listed, living⟩ := Option.any_eq_true _ _ |>.mp alive
  have kept := token_announce c table ref
  obtain ⟨after, announced⟩ := announce_of_current started listed table
  rw [announced] at kept ⊢
  exact .turn c.turn c.round c.rolling after ref listed (by rwa [kept])

theorem arrive_finds {c : Combat} {table : Table} {rounds : Nat} {batch : Step Batch}
    (spared : c.Spares table batch) (started : c.started = true)
    (later : ∀ (c : Combat) (table : Table), c.started = true →
      c.Finds (seek rounds c table)) :
    c.Finds (arrive rounds batch) := by
  obtain ⟨after, table', result⟩ := batch
  obtain ⟨⟨rolling, same⟩, -⟩ := spared
  obtain rfl : after = { c with rolling } := same
  cases result with
  | failed mishap => exact .mishap c.turn c.round rolling table' mishap
  | paused ahead rolled => exact .rest c.turn c.round rolling table' ahead rolled
  | finished rolled =>
    refine Finds.of_moved c.turn c.round rolling ?_
    rw [arrive]
    split
    · next alive => exact finds_announce started alive
    · exact later _ table' started

theorem seek_finds (rounds : Nat) (c : Combat) (table : Table) (started : c.started = true) :
    c.Finds (seek rounds c table) := by
  induction rounds generalizing c table with
  | zero => exact .nothing c.turn c.round c.rolling table
  | succ rounds inductionHypothesis =>
    cases found : c.livingFrom? table (c.turn + 1) with
    | some place =>
      rw [seek_of_living rounds found]
      refine Finds.of_moved place c.round c.rolling ?_
      exact finds_announce started (aliveAt_of_livingFrom? found)
    | none =>
      rw [seek_of_none rounds found]
      have finds := arrive_finds (newRound_spares c table) started inductionHypothesis
      exact finds.of_moved 0 (c.round + 1) c.rolling

theorem keepsLives_announce (c : Combat) (table : Table) :
    table.KeepsLives (c.announce table).table :=
  fun ref => congrArg Token.alive (token_announce c table ref)

theorem arrive_keepsLives {c : Combat} {table : Table} {rounds : Nat} {batch : Step Batch}
    (spared : c.Spares table batch)
    (later : ∀ (c : Combat) (table : Table), table.KeepsLives (seek rounds c table).table) :
    table.KeepsLives (arrive rounds batch).table := by
  obtain ⟨after, table', _ | _ | _⟩ := batch
  · rw [arrive]
    split
    · exact spared.lives.trans (keepsLives_announce after table')
    · exact spared.lives.trans (later after table')
  · exact spared.lives
  · exact spared.lives

theorem seek_keepsLives (rounds : Nat) (c : Combat) (table : Table) :
    table.KeepsLives (seek rounds c table).table := by
  induction rounds generalizing c table with
  | zero => exact .refl table
  | succ rounds inductionHypothesis =>
    cases found : c.livingFrom? table (c.turn + 1) with
    | some place =>
      rw [seek_of_living rounds found]
      exact keepsLives_announce _ table
    | none =>
      rw [seek_of_none rounds found]
      exact arrive_keepsLives (newRound_spares c table) inductionHypothesis

/-! ### The next living combatant -/

/-- The places after the current one and then those up to it, as a search looks at them. -/
def placesAhead (c : Combat) : List Nat :=
  (List.range c.combatants.length).drop (c.turn + 1) ++
    (List.range c.combatants.length).take (c.turn + 1)

/-- The first place ahead at which someone is alive. -/
def nextPlace? (c : Combat) (table : Table) : Option Nat :=
  c.placesAhead.find? (c.aliveAt table)

/-- The round in which the next turn of a place comes. -/
def roundAt (c : Combat) (place : Nat) : Nat :=
  if place ≤ c.turn then c.round + 1 else c.round

theorem livingFrom?_eq_find? (c : Combat) (table : Table) (start : Nat) :
    c.livingFrom? table start =
      ((List.range c.combatants.length).drop start).find? (c.aliveAt table) := by
  generalize left : c.combatants.length - start = places
  induction places generalizing start with
  | zero =>
    rw [livingFrom?_of_le (by omega), List.drop_eq_nil_of_le (by simp; omega), List.find?_nil]
  | succ places inductionHypothesis =>
    have within : start < (List.range c.combatants.length).length := by simp; omega
    rw [List.drop_eq_getElem_cons within, List.getElem_range, List.find?_cons]
    cases alive : c.aliveAt table start with
    | true => exact livingFrom?_of_alive alive
    | false =>
      rw [livingFrom?_of_dead alive]
      exact inductionHypothesis (start + 1) (by omega)

/-- The next place is one of this round, or else one up to the current place in the next round. -/
theorem nextPlace?_cases {c : Combat} {table : Table} {place : Nat}
    (next : c.nextPlace? table = some place) :
    c.turn < place ∧ c.livingFrom? table (c.turn + 1) = some place ∨
      place ≤ c.turn ∧ c.livingFrom? table (c.turn + 1) = none ∧
        c.livingFrom? table 0 = some place := by
  rw [nextPlace?, placesAhead, List.find?_append, ← livingFrom?_eq_find?] at next
  cases found : c.livingFrom? table (c.turn + 1) with
  | some other =>
    rw [found] at next
    obtain rfl := Option.some.inj next
    obtain ⟨offset, -, later⟩ := Option.map_eq_some_iff.mp found
    exact .inl ⟨by omega, rfl⟩
  | none =>
    rw [found, Option.none_or] at next
    refine .inr ⟨?_, rfl, ?_⟩
    · have member := List.mem_of_find?_eq_some next
      rw [List.take_range, List.mem_range] at member
      omega
    · rw [livingFrom?_eq_find?, List.drop_zero,
        ← List.take_append_drop (c.turn + 1) (List.range c.combatants.length), List.find?_append,
        next, Option.some_or]

/-- A next place up to the current one is the first of all at which someone is alive. -/
theorem first_of_nextPlace? {c : Combat} {table : Table} {place : Nat}
    (next : c.nextPlace? table = some place) (wraps : place ≤ c.turn) :
    c.livingFrom? table 0 = some place := by
  rcases nextPlace?_cases next with ⟨within, -⟩ | ⟨-, -, first⟩
  · exact absurd within (Nat.not_lt_of_le wraps)
  · exact first

theorem livingFrom?_congr {c : Combat} {before after : Table}
    (lives : ∀ ref ∈ c.combatants, (after.token ref).alive = (before.token ref).alive)
    (start : Nat) : c.livingFrom? after start = c.livingFrom? before start := by
  have same : c.aliveAt after = c.aliveAt before := by
    funext place
    rw [aliveAt, aliveAt]
    cases listed : c.combatants[place]? with
    | none => rfl
    | some ref => exact lives ref (List.mem_of_getElem? listed)
  rw [livingFrom?_eq_find?, livingFrom?_eq_find?, same]

/-- A search at the first place of a round comes to the first living combatant of all. -/
theorem arrive_of_living {c : Combat} {table : Table} {place : Nat} (rounds rolled : Nat)
    (first : c.turn = 0) (found : c.livingFrom? table 0 = some place) :
    arrive (rounds + 1) ⟨c, table, .finished rolled⟩ = { c with turn := place }.announce table := by
  rw [arrive]
  split
  · next alive =>
    rw [first] at alive
    obtain rfl := Option.some.inj ((livingFrom?_of_alive alive).symm.trans found)
    rw [← first]
  · next dead =>
    rw [first, Bool.not_eq_true] at dead
    refine seek_of_living rounds ?_
    rw [first, ← livingFrom?_of_dead dead]
    exact found

/-! ### Looks -/

/-- Where a search stands between two looks: it goes on from a place, or has come to something. -/
inductive Look where
  | onward (c : Combat) (table : Table)
  | settled (step : Step Stage)

/-- Whether a search goes on. -/
def Look.isOnward : Look → Bool
  | .onward _ _ => true
  | .settled _ => false

/-- Look at the place that a search has come to, after the batch that precedes it. -/
def regard : Step Batch → Look
  | ⟨c, table, .failed mishap⟩ => .settled ⟨c, table, .ended (.raised mishap)⟩
  | ⟨c, table, .paused ahead rolled⟩ => .settled ⟨c, table, .resting ahead rolled⟩
  | ⟨c, table, .finished _⟩ =>
    if c.aliveAt table c.turn then .settled (c.announce table) else .onward c table

theorem regard_of_alive {c : Combat} {table : Table} (alive : c.aliveAt table c.turn = true)
    (rolled : Nat) : regard ⟨c, table, .finished rolled⟩ = .settled (c.announce table) :=
  if_pos alive

theorem regard_of_dead {c : Combat} {table : Table} (dead : c.aliveAt table c.turn = false)
    (rolled : Nat) : regard ⟨c, table, .finished rolled⟩ = .onward c table :=
  if_neg (Bool.eq_false_iff.mp dead)

/-- Go on to the next place and look at it. -/
def lookOn (c : Combat) (table : Table) : Look :=
  if c.turn + 1 < c.combatants.length then
    regard ⟨{ c with turn := c.turn + 1 }, table, .finished 0⟩
  else regard (c.newRound table)

/-- A number of looks, as long as a search goes on. -/
def looks : Nat → Look → Look
  | count + 1, .onward c table => looks count (lookOn c table)
  | _, look => look

@[simp]
theorem looks_settled (count : Nat) (step : Step Stage) :
    looks count (.settled step) = .settled step := by
  cases count <;> rfl

@[simp]
theorem looks_zero (look : Look) : looks 0 look = look := by
  cases look <;> rfl

theorem looks_add (first second : Nat) (look : Look) :
    looks (first + second) look = looks second (looks first look) := by
  induction first generalizing look with
  | zero => rw [Nat.zero_add, looks_zero]
  | succ first inductionHypothesis =>
    cases look with
    | settled step => simp only [looks_settled]
    | onward c table =>
      rw [Nat.succ_add]
      exact inductionHypothesis (lookOn c table)

/-- Where a search stands that has been cut into pieces. -/
def Step.look : Step Stage → Look
  | ⟨c, table, .adrift⟩ => .onward c table
  | step => .settled step

theorem Step.look_of_settled {step : Step Stage} (settled : step.result ≠ .adrift) :
    step.look = .settled step := by
  obtain ⟨c, table, result⟩ := step
  cases result with
  | adrift => exact absurd rfl settled
  | resting _ _ | announcing _ | ended _ => rfl

theorem look_announce (c : Combat) (table : Table) :
    (c.announce table).look = .settled (c.announce table) := by
  unfold announce
  split <;> rfl

/-- Looks lead to the next living combatant of the round, or to the batch of a new round. -/
theorem looks_round (c : Combat) (table : Table) :
    ∃ count ≤ c.combatants.length - (c.turn + 1) + 1, looks count (.onward c table) =
      match c.livingFrom? table (c.turn + 1) with
      | some place => .settled ({ c with turn := place }.announce table)
      | none => regard (c.newRound table) := by
  generalize left : c.combatants.length - (c.turn + 1) = places
  induction places generalizing c with
  | zero =>
    have last : ¬ c.turn + 1 < c.combatants.length := by omega
    refine ⟨1, Nat.le_refl _, ?_⟩
    rw [livingFrom?_of_le (by omega)]
    change lookOn c table = _
    rw [lookOn, if_neg last]
  | succ places inductionHypothesis =>
    have within : c.turn + 1 < c.combatants.length := by omega
    have first : lookOn c table = regard ⟨{ c with turn := c.turn + 1 }, table, .finished 0⟩ :=
      if_pos within
    cases alive : c.aliveAt table (c.turn + 1) with
    | true =>
      refine ⟨1, by omega, ?_⟩
      rw [livingFrom?_of_alive alive]
      change lookOn c table = _
      rw [first]
      exact regard_of_alive alive 0
    | false =>
      obtain ⟨count, few, led⟩ := inductionHypothesis { c with turn := c.turn + 1 }
        (by simp only; omega)
      refine ⟨count + 1, by omega, ?_⟩
      rw [livingFrom?_of_dead alive]
      have onward : lookOn c table = .onward { c with turn := c.turn + 1 } table :=
        first.trans (regard_of_dead alive 0)
      change looks count (lookOn c table) = _
      rw [onward, led]
      rfl

theorem looks_arrive {rounds : Nat} {batch : Step Batch} {order : List TokenRef}
    (same : batch.combat.combatants = order)
    (later : ∀ c table, ∃ count ≤ rounds * (c.combatants.length + 1),
      looks count (.onward c table) = (seek rounds c table).look) :
    ∃ count ≤ rounds * (order.length + 1),
      looks count (regard batch) = (arrive rounds batch).look := by
  obtain ⟨c, table, _ | _ | _⟩ := batch
  · rw [regard, arrive]
    split
    · exact ⟨0, Nat.zero_le _, by rw [looks_zero, look_announce]⟩
    · exact same ▸ later c table
  · exact ⟨0, Nat.zero_le _, rfl⟩
  · exact ⟨0, Nat.zero_le _, rfl⟩

/-- What is sought round by round is found look by look. -/
theorem looks_seek (rounds : Nat) (c : Combat) (table : Table) :
    ∃ count ≤ rounds * (c.combatants.length + 1),
      looks count (.onward c table) = (seek rounds c table).look := by
  induction rounds generalizing c table with
  | zero => exact ⟨0, Nat.zero_le _, rfl⟩
  | succ rounds inductionHypothesis =>
    obtain ⟨first, few, led⟩ := looks_round c table
    rw [Nat.succ_mul]
    cases found : c.livingFrom? table (c.turn + 1) with
    | some place =>
      rw [found] at led
      exact ⟨first, by omega, by rw [led, seek_of_living rounds found, look_announce]⟩
    | none =>
      rw [found] at led
      obtain ⟨⟨_, same⟩, -⟩ := newRound_spares c table
      have kept : (c.newRound table).combat.combatants = c.combatants := by
        rw [same]
        rfl
      obtain ⟨second, fewer, arrived⟩ := looks_arrive kept inductionHypothesis
      refine ⟨first + second, by omega, ?_⟩
      rw [looks_add, led, seek_of_none rounds found, ← arrived]

/-! ### Searches without end -/

/-- Whether a search has nobody to find, and no rolls to wait for. -/
structure IsLost (c : Combat) (table : Table) : Prop where
  nobody : c.anyAlive table = false
  idle : c.rolling = true ∨ c.candidates table = []

/-- The batch with which a round of a lost search begins is finished at once. -/
theorem IsLost.newRound {c : Combat} {table : Table} (lost : c.IsLost table) :
    ∃ after table', c.newRound table = ⟨after, table', .finished 0⟩ ∧ after.IsLost table' := by
  rw [Combat.newRound]
  cases rolling : c.rolling with
  | true =>
    rw [beginBatch_of_rolling (c := c.wrapped) rolling]
    exact ⟨_, _, rfl, lost.nobody, .inl rolling⟩
  | false =>
    have none : c.candidates table = [] := by
      rcases lost.idle with idle | none
      · rw [rolling] at idle
        cases idle
      · exact none
    have still : c.wrapped.candidates
        (table.remark "combat" .info ("Round " ++ toString (c.round + 1))) = [] := none
    rw [beginBatch_of_still (c := c.wrapped) rolling, still]
    exact ⟨_, _, rfl, lost.nobody, .inr none⟩

/-- A lost search goes on, and is still lost. -/
theorem IsLost.lookOn {c : Combat} {table : Table} (lost : c.IsLost table) :
    ∃ after table', lookOn c table = .onward after table' ∧ after.IsLost table' := by
  rw [Combat.lookOn]
  split
  · exact ⟨{ c with turn := c.turn + 1 }, table,
      regard_of_dead (aliveAt_of_nobody lost.nobody (c.turn + 1)) 0, lost.nobody, lost.idle⟩
  · obtain ⟨after, table', begun, still⟩ := lost.newRound
    refine ⟨after, table', ?_, still⟩
    rw [begun, regard_of_dead (aliveAt_of_nobody still.nobody after.turn)]

/-- A lost search goes on for any number of looks. -/
theorem IsLost.looks {c : Combat} {table : Table} (lost : c.IsLost table) (count : Nat) :
    (looks count (.onward c table)).isOnward = true := by
  induction count generalizing c table with
  | zero => rfl
  | succ count inductionHypothesis =>
    obtain ⟨after, table', onward, still⟩ := lost.lookOn
    change (Combat.looks count (Combat.lookOn c table)).isOnward = true
    rw [onward]
    exact inductionHypothesis still

/-- What is still going on after some looks was going on all the time before. -/
theorem isOnward_of_looks {first second : Nat} {look : Look} (earlier : first ≤ second)
    (onward : (looks second look).isOnward = true) : (looks first look).isOnward = true := by
  obtain ⟨more, rfl⟩ := Nat.exists_eq_add_of_le earlier
  rw [looks_add] at onward
  cases led : looks first look with
  | onward c table => rfl
  | settled step => rwa [led, looks_settled] at onward

/-- A search that gives up has come to a place where nobody is alive. -/
theorem arrive_adrift {rounds : Nat} {batch : Step Batch}
    (adrift : (arrive rounds batch).result = .adrift) :
    ∃ c table count, batch = ⟨c, table, .finished count⟩ ∧ c.aliveAt table c.turn = false ∧
      (seek rounds c table).result = .adrift := by
  obtain ⟨c, table, count | _ | _⟩ := batch
  · rw [arrive] at adrift
    split at adrift
    · unfold announce at adrift
      split at adrift <;> cases adrift
    · next dead => exact ⟨c, table, count, rfl, by simpa using dead, adrift⟩
  · cases adrift
  · cases adrift

/-- A search that gives up finds nobody in the rest of its first round. -/
theorem livingFrom?_of_adrift {rounds : Nat} {c : Combat} {table : Table}
    (adrift : (seek (rounds + 1) c table).result = .adrift) :
    c.livingFrom? table (c.turn + 1) = none := by
  cases found : c.livingFrom? table (c.turn + 1) with
  | none => rfl
  | some place =>
    rw [seek_of_living rounds found] at adrift
    unfold announce at adrift
    split at adrift <;> cases adrift

theorem combat_newRound {c after : Combat} {table table' : Table} {batch : Batch}
    (begun : c.newRound table = ⟨after, table', batch⟩) :
    ∃ rolling, after = { c.wrapped with rolling } := by
  obtain ⟨rolling, same⟩ := (newRound_spares c table).combat
  exact ⟨rolling, by rwa [begun] at same⟩

/-- When the batch of a new round is finished at once, nobody waits for a roll who could be rolled
for. -/
theorem idle_of_newRound {c after : Combat} {table table' : Table} {count : Nat}
    (begun : c.newRound table = ⟨after, table', .finished count⟩) :
    after.rolling = true ∨ after.candidates table' = [] := by
  rw [newRound] at begun
  cases rolling : c.rolling with
  | true =>
    rw [beginBatch_of_rolling (c := c.wrapped) rolling] at begun
    obtain ⟨rfl, -⟩ := Step.mk.inj begun
    exact .inl rolling
  | false =>
    rw [beginBatch_of_still (c := c.wrapped) rolling] at begun
    generalize table.remark "combat" .info ("Round " ++ toString (c.round + 1)) = told at begun
    have proceeds := continueBatch_proceeds { c.wrapped with rolling := true } told
      (c.wrapped.candidates told) 0
    rw [begun] at proceeds
    cases proceeds with
    | finished _ _ rolls served =>
      exact .inr (covers_nil_iff.mp (served (covers_candidates c.wrapped told)))

/-- A search that gives up after two rounds or more has nobody to find, and comes to be lost. -/
theorem isLost_of_adrift {rounds : Nat} {c : Combat} {table : Table}
    (adrift : (seek (rounds + 2) c table).result = .adrift) :
    c.anyAlive table = false ∧
      ∃ count after table', looks count (.onward c table) = .onward after table' ∧
        after.IsLost table' := by
  have none := livingFrom?_of_adrift adrift
  rw [seek_of_none (rounds + 1) none] at adrift
  obtain ⟨after, table', finished, begun, dead, again⟩ := arrive_adrift adrift
  obtain ⟨rolling, rfl⟩ := combat_newRound begun
  have noneLater := livingFrom?_of_adrift again
  have nobody : ({ c.wrapped with rolling } : Combat).anyAlive table' = false :=
    livingFrom?_zero_eq_none.mp ((livingFrom?_of_dead dead).trans noneLater)
  have lives := (newRound_spares c table).lives
  rw [begun] at lives
  refine ⟨(anyAlive_of_keepsLives (c := c) lives).symm.trans nobody, ?_⟩
  obtain ⟨count, -, led⟩ := looks_round c table
  rw [none, begun] at led
  exact ⟨count, _, table', led.trans (regard_of_dead dead finished), nobody,
    idle_of_newRound begun⟩

/-- Nobody dead is found, so where everyone is dead no turn is announced. -/
theorem Finds.turn?_of_nobody {c : Combat} {step : Step Stage} (finds : c.Finds step)
    (nobody : c.anyAlive step.table = false) : step.turn? = none := by
  cases finds with
  | turn _ _ _ table ref listed alive =>
    rw [anyAlive, List.any_eq_false] at nobody
    exact absurd alive (nobody ref (List.mem_of_getElem? listed))
  | rest | mishap | nothing => rfl

/-- Once started, a combat stays so. -/
theorem started_afterBatch {c : Combat} {table : Table} {batch : Step Batch} (errand : Errand)
    (spared : c.Spares table batch) (started : c.started = true) :
    (afterBatch errand batch).combat.started = true := by
  cases turner : errand.takesTurn with
  | false =>
    obtain ⟨⟨_, same⟩, -⟩ := afterBatch_aside turner spared
    rw [same, ← started]
  | true =>
    cases errand with
    | roll | join => cases turner
    | start =>
      have opens := afterBatch_start_opens spared
      generalize afterBatch .start batch = step at opens ⊢
      cases opens with
      | turn | nobody => rfl
      | pause | mishap => exact started
    | next =>
      rw [afterBatch_next]
      obtain ⟨_, _, _, moved⟩ :=
        (arrive_finds spared started (seek_finds enoughRounds)).moved
      rw [moved, ← started]

end Combat

namespace Melee

/-- Whether the combat has started if an errand for the next turn rests. -/
def Underway (m : Melee) : Prop :=
  ∀ r ∈ m.resting, r.errand = .next → m.combat.started = true

theorem Underway.settle {m : Melee} {others : List Resting} {errand : Errand}
    {step : Combat.Step Combat.Stage} (underway : m.Underway) (fewer : others ⊆ m.resting)
    (kept : m.combat.started = true → step.combat.started = true)
    (called : errand = .next → m.combat.started = true) :
    (m.settle others errand step).Underway := by
  intro r rests next
  rcases List.mem_append.mp rests with other | new
  · exact kept (underway r (fewer other) next)
  · refine kept (called ?_)
    obtain ⟨c, table, stage⟩ := step
    cases stage with
    | resting ahead rolled =>
      obtain rfl := List.mem_singleton.mp new
      exact next
    | announcing _ | ended _ | adrift => cases new

theorem Underway.effect {m : Melee} (underway : m.Underway) (incident : Incident) :
    (m.effect incident).Underway := by
  have all : m.resting ⊆ m.resting := fun _ rests => rests
  have begun := m.combat.beginBatch_spares m.table
  cases incident with
  | roll =>
    exact underway.settle all (Combat.started_afterBatch .roll begun) (fun other => by cases other)
  | start =>
    exact underway.settle all (Combat.started_afterBatch .start begun) (fun other => by cases other)
  | next =>
    change (m.settle m.resting (m.combat.next m.table).1 (m.combat.next m.table).2).Underway
    unfold Combat.next
    split
    · exact underway.settle all (Combat.started_afterBatch .start begun)
        (fun other => by cases other)
    · next started =>
      have started : m.combat.started = true := by simpa using started
      split
      · exact underway.settle all id fun _ => started
      · refine underway.settle all (fun _ => ?_) fun _ => started
        obtain ⟨_, _, _, moved⟩ :=
          (Combat.seek_finds Combat.enoughRounds m.combat m.table started).moved
        rw [moved, ← started]
  | join ref =>
    change (m.settle m.resting .join (m.combat.join m.table ref)).Underway
    refine underway.settle all (fun started => ?_) (fun other => by cases other)
    unfold Combat.join
    dsimp only
    split
    · exact Combat.started_afterBatch .join (Combat.beginBatch_spares _ _) started
    · exact started
  | rested place =>
    cases found : m.resting[place]? with
    | none => simpa [Melee.effect, piece?, found] using underway
    | some r =>
      have rests := List.mem_of_getElem? found
      have taken : (m.settle (m.resting.eraseIdx place) r.errand
          (m.combat.rested m.table r.errand r.ahead r.rolled)).Underway :=
        underway.settle List.eraseIdx_subset
          (Combat.started_afterBatch r.errand
            (m.combat.continueBatch_spares m.table r.ahead r.rolled))
          (underway r rests)
      simpa [Melee.effect, piece?, found, others] using taken
  | disturbed table => exact underway

theorem Underway.after {m : Melee} (underway : m.Underway) (history : List Incident) :
    (m.after history).Underway := by
  induction history generalizing m with
  | nil => exact underway
  | cons incident rest inductionHypothesis => exact inductionHypothesis (underway.effect incident)

/-- Whenever an errand for the next turn goes on after a rest, whatever has been done until then, it
looks at a bounded number of places before it announces the turn of someone alive, rests again or
fails, unless it never comes to anything. That happens only when nobody is alive, and then it looks
at places without end. While nobody is alive it announces no turn. -/
theorem searches_end (c : Combat) (table : Table) (history : List Incident) :
    let m := ({ combat := c, table } : Melee).after history
    ∀ r ∈ m.resting, r.errand = .next →
      let look := Combat.regard (m.combat.continueBatch m.table r.ahead r.rolled)
      let step := m.combat.rested m.table .next r.ahead r.rolled
      m.combat.Finds step ∧
        (step.result ≠ .adrift → ∃ count ≤ Combat.enoughRounds * (m.combat.combatants.length + 1),
          Combat.looks count look = .settled step) ∧
        (step.result = .adrift → m.combat.anyAlive m.table = false ∧
          ∀ count, (Combat.looks count look).isOnward = true) ∧
        (m.combat.anyAlive m.table = false → step.turn? = none) := by
  intro m r rests next look step
  have underway : m.Underway := Underway.after (fun _ rests => by cases rests) history
  have started := underway r rests next
  have spared := m.combat.continueBatch_spares m.table r.ahead r.rolled
  have arrived : step = Combat.arrive Combat.enoughRounds
      (m.combat.continueBatch m.table r.ahead r.rolled) := Combat.afterBatch_next _
  have finds : m.combat.Finds step := by
    rw [arrived]
    exact Combat.arrive_finds spared started (Combat.seek_finds Combat.enoughRounds)
  refine ⟨finds, fun settled => ?_, fun adrift => ?_, fun nobody => ?_⟩
  · obtain ⟨_, same⟩ := spared.combat
    have kept : (m.combat.continueBatch m.table r.ahead r.rolled).combat.combatants =
        m.combat.combatants := by
      rw [same]
    obtain ⟨count, few, led⟩ := Combat.looks_arrive kept (Combat.looks_seek Combat.enoughRounds)
    rw [← arrived, Combat.Step.look_of_settled settled] at led
    exact ⟨count, few, led⟩
  · rw [arrived] at adrift
    obtain ⟨after, table', rolled, batch, dead, again⟩ := Combat.arrive_adrift adrift
    obtain ⟨nobody, first, lost, table'', led, isLost⟩ := Combat.isLost_of_adrift again
    obtain ⟨⟨rolling, same⟩, lives⟩ := spared
    rw [batch] at same lives
    obtain rfl : after = { m.combat with rolling } := same
    have before : m.combat.anyAlive m.table = false :=
      (Combat.anyAlive_of_keepsLives (c := m.combat) lives).symm.trans nobody
    refine ⟨before, fun count => ?_⟩
    have onward : look = .onward { m.combat with rolling } table' := by
      change Combat.regard _ = _
      rw [batch, Combat.regard_of_dead dead]
    refine Combat.isOnward_of_looks (Nat.le_add_left count first) ?_
    rw [onward, Combat.looks_add, led]
    exact isLost.looks count
  · refine finds.turn?_of_nobody ?_
    rw [← nobody, arrived]
    exact Combat.anyAlive_of_keepsLives
      (Combat.arrive_keepsLives spared (Combat.seek_keepsLives Combat.enoughRounds))

/-- The duelists that fall while the errand for the second round rests. -/
def felled (fallen : List TokenRef) : Incident :=
  .disturbed (fallen.foldl (fun table ref => table.change ref fun t => { t with hp := 0 })
    (opened.after secondRound).table)

theorem after_felled (fallen : List TokenRef) :
    duelists.after ([.next, .rested 0] ++ (secondRound ++ [felled fallen])) =
      opened.after (secondRound ++ [felled fallen]) := by
  rw [← after_opened, ← after_append]

theorem searches_end_duel :
    let m := duelists.after ([.next, .rested 0] ++ (secondRound ++ [felled [0]]))
    let step := m.combat.rested m.table .next [1] 1
    ⟨.next, [1], 1⟩ ∈ m.resting ∧ m.combat.anyAlive m.table = true ∧
      step.turn? = some ⟨2, 1, 1⟩ ∧
      ∃ count ≤ 9, Combat.looks count (Combat.regard (m.combat.continueBatch m.table [1] 1)) =
        .settled step := by
  intro m step
  have reached : m = opened.after (secondRound ++ [felled [0]]) := after_felled [0]
  have rests : ⟨.next, [1], 1⟩ ∈ m.resting := by
    rw [reached]
    decide +kernel
  have alive : m.combat.anyAlive m.table = true := by
    rw [reached]
    decide +kernel
  obtain ⟨-, ends, endless, -⟩ := searches_end duelists.combat duelists.table _ _ rests rfl
  have settled : step.result ≠ .adrift := fun adrift => by
    obtain ⟨nobody, -⟩ := endless adrift
    rw [show m.combat.anyAlive m.table = false from nobody] at alive
    cases alive
  obtain ⟨count, few, led⟩ := ends settled
  have size : Combat.enoughRounds * (m.combat.combatants.length + 1) = 9 := by
    rw [reached]
    decide +kernel
  refine ⟨rests, alive, ?_, count, size ▸ few, led⟩
  simp only [step, reached]
  decide +kernel

/-- When both duelists fall while the errand for the second round rests, it looks for someone alive
without end. -/
theorem search_of_felled_never_ends :
    let m := duelists.after ([.next, .rested 0] ++ (secondRound ++ [felled [0, 1]]))
    m.combat.started = true ∧ ⟨.next, [1], 1⟩ ∈ m.resting ∧
      ∀ count, (Combat.looks count
        (Combat.regard (m.combat.continueBatch m.table [1] 1))).isOnward = true := by
  intro m
  have reached : m = opened.after (secondRound ++ [felled [0, 1]]) := after_felled [0, 1]
  rw [reached]
  refine ⟨by decide +kernel, by decide +kernel, fun count => ?_⟩
  let batch := (opened.after (secondRound ++ [felled [0, 1]])).combat.continueBatch
    (opened.after (secondRound ++ [felled [0, 1]])).table [1] 1
  have finished : batch = ⟨batch.combat, batch.table, .finished 2⟩ :=
    congrArg (Combat.Step.mk batch.combat batch.table) (by decide +kernel)
  have lost : batch.combat.IsLost batch.table :=
    ⟨by decide +kernel, .inr (by decide +kernel)⟩
  change (Combat.looks count (Combat.regard batch)).isOnward = true
  rw [finished, Combat.regard_of_dead (Combat.aliveAt_of_nobody lost.nobody _)]
  exact lost.looks count

end Melee
end TurnScript
