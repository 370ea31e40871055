import TurnScript.Proofs.Combat.Search
import TurnScript.Proofs.Session.Announcing
import TurnScript.Proofs.Session.Stopping

/-!
# From turn to turn

A call for the next turn of a combat comes to the next living combatant, in the same round or in the
next one, and tells every listener of that turn, one after the other. When it comes to a new round
it rolls first for whoever waits for a roll. Between two pieces of the call others may do what they
like, as long as they leave the combat and its combatants alone.
-/

namespace TurnScript.Session

variable {s now later : Session} {ref : CombatRef} {place count : Nat}

/-! ## Courses of a call -/

/-- A session in which others have done anything but touch a combat or its combatants. -/
structure Undisturbed (s later : Session) (ref : CombatRef) : Prop where
  known : ref < s.combats.length → ref < later.combats.length
  combat : later.combat ref = s.combat ref
  tokens : ∀ other ∈ (s.combat ref).combatants, later.token other = s.token other

/-- A session in which others have touched neither a combat nor the runs that are held. -/
def StandBy (ref : CombatRef) (s later : Session) : Prop :=
  s.Undisturbed later ref ∧ s.LeavesRuns later

/-- How a call for the next turn can come along when nobody else touches the combat: how often it
has been taken up, what it has come to, and the turns that it has told listeners of. -/
inductive Course (s : Session) (ref : CombatRef) :
    Nat → Session × Flow → List (Nat × String) → Prop
  | called : Course s ref 0 (s.nextTurn ref) (turnsSince s (s.nextTurn ref).1)
  | takenUp {count : Nat} {before : Session} {activity : Activity} {told : List (Nat × String)}
      (earlier : Course s ref count (before, .held activity) told) (later : Session)
      (rested : Bool) (undisturbed : before.Undisturbed later ref) :
      Course s ref (count + 1) (later.takeUpActivity rested activity)
        (turnsSince later (later.takeUpActivity rested activity).1 ++ told)

/-- What has become of a session by the time at which a call begins to tell of the turn of the
combatant at a place. -/
structure Fires (s fired : Session) (ref : CombatRef) (place : Nat) (token : TokenRef) : Prop where
  known : ref < fired.combats.length
  listed : (s.combat ref).combatants[place]? = some token
  alive : (fired.token token).alive = true
  /-- The order and the listeners are as they were. -/
  combat : ∃ rolling, fired.combat ref =
    { s.combat ref with turn := place, round := (s.combat ref).roundAt place, rolling }
  /-- Initiatives are all that combatants have got, and only those who waited for a roll. -/
  rolled : ∀ other ∈ (s.combat ref).combatants,
    (s.combat ref).Rolled (s.token other) (fired.token other)
  /-- Within a round nobody is rolled for. -/
  within : (s.combat ref).turn < place →
    ∀ other ∈ (s.combat ref).combatants, fired.token other = s.token other
  /-- In a new round nobody waits for a roll any longer, unless another batch was under way. -/
  wraps : place ≤ (s.combat ref).turn → (s.combat ref).rolling = false →
    ∀ other ∈ (s.combat ref).combatants, (s.combat ref).awaitsRoll (fired.token other) = false

/-- A call rests between the rolls for a new round. -/
structure Rests (s later : Session) (ref : CombatRef) (count : Nat) (ahead : List TokenRef) :
    Prop where
  known : ref < later.combats.length
  still : (s.combat ref).rolling = false
  combat : later.combat ref = { (s.combat ref).wrapped with rolling := true }
  rolled : ∀ other ∈ (s.combat ref).combatants,
    (s.combat ref).Rolled (s.token other) (later.token other)
  covers : (s.combat ref).Covers later.table ahead
  within : ahead ⊆ (s.combat ref).candidates s.table
  few : count + ahead.length < ((s.combat ref).candidates s.table).length

/-- How far a call for the next turn has come that leads to a place, after it has been taken up a
number of times, and the turns that it has told of. -/
inductive Advances (s : Session) (ref : CombatRef) (place count : Nat) :
    Session × ErrandStanding → List (Nat × String) → Prop
  /-- It rests on the way to a new round. -/
  | resting {later : Session} {ahead : List TokenRef} (rolled : Nat)
      (wraps : place ≤ (s.combat ref).turn) (rests : Rests s later ref count ahead) :
      Advances s ref place count (later, .held (.resting ahead rolled)) []
  /-- A roll for the new round has failed. -/
  | raised {later : Session} (mishap : Mishap) (wraps : place ≤ (s.combat ref).turn) :
      Advances s ref place count (later, .over (.error (.mishap mishap))) []
  /-- Its listeners are told of the turn of the place, or all have been, or one has failed. -/
  | telling {fired later : Session} {token : TokenRef} {standing : ErrandStanding}
      {told : List (Nat × String)} (fires : Fires s fired ref place token)
      (known : ref < later.combats.length) (same : later.combat ref = fired.combat ref)
      (named : (later.token token).id = (s.token token).id)
      (tells : Tells (s.combat ref).listeners token
        ((s.combat ref).roundAt place, (s.token token).id) standing told) :
      Advances s ref place count (later, standing) told

/-! ## Combats in a session -/

theorem combat_withCombat (known : ref < s.combats.length) (c : Combat) (table : Table) :
    (s.withCombat ref c table).combat ref = c := by
  simp [withCombat, withTable, combat, List.getD, known]

theorem turnsTold_withCombat (s : Session) (ref : CombatRef) (c : Combat) (table : Table) :
    (s.withCombat ref c table).turnsTold = s.turnsTold :=
  turnsTold_withTable _ table

theorem known_withCombat (known : ref < s.combats.length) (c : Combat) (table : Table) :
    ref < (s.withCombat ref c table).combats.length := by
  simpa [withCombat, withTable] using known

/-- Announcing a turn is telling the listeners of the token at the current place. -/
theorem attend_announce (s : Session) (ref : CombatRef) {c : Combat} {token : TokenRef}
    (started : c.started = true) (listed : c.combatants[c.turn]? = some token) (table : Table) :
    ∃ told : Table, told.token = table.token ∧ s.attend ref (c.announce table) =
      tellListeners ref token (s.withCombat ref c told) c.listeners := by
  have current : c.current = some token := by rw [Combat.current, if_pos started, listed]
  rw [Combat.announce, current]
  exact ⟨table.remark _ _ _, rfl, rfl⟩

/-! ## Batches on the way to a new round -/

/-- What a batch comes to on the way to a new round. -/
inductive Batched (s : Session) (ref : CombatRef) (count : Nat) :
    Combat.Step Combat.Batch → Prop
  | finished (rolling : Bool) (table : Table) (rolled : Nat)
      (tokens : ∀ other ∈ (s.combat ref).combatants,
        (s.combat ref).Rolled (s.token other) (table.token other))
      (served : (s.combat ref).rolling = false → (s.combat ref).Covers table []) :
      Batched s ref count ⟨{ (s.combat ref).wrapped with rolling }, table, .finished rolled⟩
  | paused (table : Table) (ahead : List TokenRef) (rolled : Nat)
      (tokens : ∀ other ∈ (s.combat ref).combatants,
        (s.combat ref).Rolled (s.token other) (table.token other))
      (still : (s.combat ref).rolling = false)
      (covers : (s.combat ref).Covers table ahead)
      (within : ahead ⊆ (s.combat ref).candidates s.table)
      (few : count + ahead.length < ((s.combat ref).candidates s.table).length) :
      Batched s ref count
        ⟨{ (s.combat ref).wrapped with rolling := true }, table, .paused ahead rolled⟩
  | failed (rolling : Bool) (table : Table) (mishap : Mishap) :
      Batched s ref count ⟨{ (s.combat ref).wrapped with rolling }, table, .failed mishap⟩

/-- A batch for those who waited, of whom some are left, goes on. -/
theorem Batched.of_proceeds {table : Table} {ahead : List TokenRef}
    {step : Combat.Step Combat.Batch} (still : (s.combat ref).rolling = false)
    (tokens : ∀ other ∈ (s.combat ref).combatants,
      (s.combat ref).Rolled (s.token other) (table.token other))
    (covers : (s.combat ref).Covers table ahead)
    (within : ahead ⊆ (s.combat ref).candidates s.table)
    (few : count + ahead.length ≤ ((s.combat ref).candidates s.table).length)
    (proceeds : Combat.Proceeds { (s.combat ref).wrapped with rolling := true } table ahead step) :
    Batched s ref count step := by
  have later (after : Table) (rolls : table.RollsFor ahead after) :
      ∀ other ∈ (s.combat ref).combatants,
        (s.combat ref).Rolled (s.token other) (after.token other) :=
    fun other listed => (tokens other listed).rollsFor within rolls
  cases proceeds with
  | finished after rolled rolls served =>
    exact .finished false after rolled (later after rolls) fun _ => served covers
  | paused after ahead rolled rolls fewer =>
    obtain ⟨coversLater, withinLater, less⟩ := fewer covers
    exact .paused after ahead rolled (later after rolls) still coversLater
      (List.Subset.trans withinLater within) (by omega)
  | failed after mishap rolls => exact .failed false after mishap

theorem batched_newRound (s : Session) (ref : CombatRef) :
    Batched s ref 0 ((s.combat ref).newRound s.table) := by
  have told : (s.table.remark "combat" .info
    ("Round " ++ toString ((s.combat ref).round + 1))).token = s.table.token := rfl
  rw [Combat.newRound]
  generalize s.table.remark "combat" .info
    ("Round " ++ toString ((s.combat ref).round + 1)) = table at told ⊢
  have tokens : ∀ other ∈ (s.combat ref).combatants,
      (s.combat ref).Rolled (s.token other) (table.token other) := by
    intro other _
    rw [told]
    exact .inl rfl
  cases rolling : (s.combat ref).rolling with
  | true =>
    rw [Combat.beginBatch_of_rolling (c := (s.combat ref).wrapped) rolling]
    refine .finished (s.combat ref).wrapped.rolling _ 0 tokens fun still => ?_
    rw [rolling] at still
    cases still
  | false =>
    rw [Combat.beginBatch_of_still (c := (s.combat ref).wrapped) rolling]
    have same : (s.combat ref).wrapped.candidates table =
        (s.combat ref).candidates s.table := by
      rw [Combat.candidates, told]
      rfl
    refine Batched.of_proceeds rolling tokens ?_ (same ▸ List.Subset.refl _) (by simp [same])
      (Combat.continueBatch_proceeds _ _ _ _)
    exact Combat.covers_candidates (s.combat ref).wrapped table

theorem Rests.undisturbed {before : Session} {ahead : List TokenRef}
    (rests : Rests s before ref count ahead) (undisturbed : before.Undisturbed later ref) :
    Rests s later ref count ahead := by
  have order : (before.combat ref).combatants = (s.combat ref).combatants := by
    rw [rests.combat]
    rfl
  have tokens : ∀ other ∈ (s.combat ref).combatants, later.token other = before.token other :=
    fun other listed => undisturbed.tokens other (order ▸ listed)
  refine ⟨undisturbed.known rests.known, rests.still, undisturbed.combat.trans rests.combat, ?_, ?_,
    rests.within, rests.few⟩
  · intro other listed
    rw [tokens other listed]
    exact rests.rolled other listed
  · intro other listed waits
    have same : later.table.token other = before.table.token other := tokens other listed
    rw [same] at waits
    exact rests.covers other listed waits

/-- The batch of a call that rests goes on. -/
theorem Rests.batched {ahead : List TokenRef} (rests : Rests s later ref count ahead)
    (rolled : Nat) :
    Batched s ref (count + 1) ((later.combat ref).continueBatch later.table ahead rolled) := by
  have few := rests.few
  rw [rests.combat]
  exact Batched.of_proceeds rests.still rests.rolled rests.covers rests.within (by omega)
    (Combat.continueBatch_proceeds _ _ _ _)

/-! ## Pieces of a call -/

/-- How a call goes on once its batch has come to something on the way to a new round. -/
inductive Arrives (s now : Session) (ref : CombatRef) (place count : Nat) :
    Session × ErrandStanding → Prop
  | telling {fired : Session} {token : TokenRef} (fires : Fires s fired ref place token)
      (silent : fired.turnsTold = now.turnsTold) :
      Arrives s now ref place count (tellListeners ref token fired (s.combat ref).listeners)
  | resting {later : Session} {ahead : List TokenRef} (rolled : Nat)
      (wraps : place ≤ (s.combat ref).turn) (rests : Rests s later ref count ahead)
      (silent : later.turnsTold = now.turnsTold) :
      Arrives s now ref place count (later, .held (.resting ahead rolled))
  | raised {later : Session} (mishap : Mishap) (wraps : place ≤ (s.combat ref).turn)
      (silent : later.turnsTold = now.turnsTold) :
      Arrives s now ref place count (later, .over (.error (.mishap mishap)))

theorem Batched.arrives {step : Combat.Step Combat.Batch} (rounds : Nat)
    (batched : Batched s ref count step) (known : ref < now.combats.length)
    (started : (s.combat ref).started = true) (wraps : place ≤ (s.combat ref).turn)
    (first : (s.combat ref).livingFrom? s.table 0 = some place) :
    Arrives s now ref place count (now.attend ref (Combat.arrive (rounds + 1) step)) := by
  cases batched with
  | failed rolling table mishap =>
    exact .raised mishap wraps (now.turnsTold_withCombat ref _ table)
  | paused table ahead rolled tokens still covers within few =>
    refine .resting rolled wraps ?_ (now.turnsTold_withCombat ref _ table)
    exact ⟨known_withCombat known _ _, still, combat_withCombat known _ _, tokens, covers, within,
      few⟩
  | finished rolling table rolled tokens served =>
    have found : (s.combat ref).livingFrom? table 0 = some place := by
      rw [← first]
      exact Combat.livingFrom?_congr (fun other listed => (tokens other listed).alive) 0
    have alive := Combat.aliveAt_of_livingFrom? found
    obtain ⟨token, listed, living⟩ := Option.any_eq_true _ _ |>.mp alive
    rw [Combat.arrive_of_living (c := { (s.combat ref).wrapped with rolling }) rounds rolled rfl
      found]
    obtain ⟨told, same, attended⟩ := now.attend_announce ref
      (c := { (s.combat ref).wrapped with rolling, turn := place }) started listed table
    rw [attended]
    refine .telling ?_ (now.turnsTold_withCombat ref _ told)
    have seen (other : TokenRef) : (now.withCombat ref
        { (s.combat ref).wrapped with rolling, turn := place } told).token other =
        table.token other := congrFun same other
    refine ⟨known_withCombat known _ _, listed, ?_, ⟨rolling, ?_⟩, ?_, ?_, ?_⟩
    · rw [seen]
      exact living
    · rw [combat_withCombat known, Combat.roundAt, if_pos wraps]
      rfl
    · intro other member
      rw [seen]
      exact tokens other member
    · exact fun within => absurd within (Nat.not_lt_of_le wraps)
    · intro _ still other member
      rw [seen]
      cases waits : (s.combat ref).awaitsRoll (table.token other) with
      | false => rfl
      | true => exact absurd (served still other member waits) List.not_mem_nil

/-- The first piece of a call where someone is alive. -/
theorem arrives_nextTurn (known : ref < s.combats.length) (started : (s.combat ref).started = true)
    (someone : (s.combat ref).anyAlive s.table = true)
    (next : (s.combat ref).nextPlace? s.table = some place) :
    ∃ piece, s.nextTurn ref = flowOfErrand ref .next piece ∧ Arrives s s ref place 0 piece := by
  have called : (s.combat ref).next s.table =
      (.next, Combat.seek Combat.enoughRounds (s.combat ref) s.table) := by
    simp [Combat.next, started, someone]
  refine ⟨s.attend ref (Combat.seek Combat.enoughRounds (s.combat ref) s.table), ?_, ?_⟩
  · rw [nextTurn, called]
  rcases Combat.nextPlace?_cases next with ⟨within, found⟩ | ⟨wraps, none, first⟩
  · rw [Combat.enoughRounds, Combat.seek_of_living 2 found]
    have alive := Combat.aliveAt_of_livingFrom? found
    obtain ⟨token, listed, living⟩ := Option.any_eq_true _ _ |>.mp alive
    obtain ⟨told, same, attended⟩ := s.attend_announce ref
      (c := { s.combat ref with turn := place }) started listed s.table
    rw [attended]
    refine .telling ?_ (s.turnsTold_withCombat ref _ told)
    have seen (other : TokenRef) :
        (s.withCombat ref { s.combat ref with turn := place } told).token other = s.token other :=
      congrFun same other
    refine ⟨known_withCombat known _ _, listed, ?_, ⟨(s.combat ref).rolling, ?_⟩, ?_, ?_, ?_⟩
    · rw [seen]
      exact living
    · rw [combat_withCombat known, Combat.roundAt, if_neg (Nat.not_le_of_lt within)]
    · exact fun other _ => .inl (seen other)
    · exact fun _ other _ => seen other
    · exact fun wraps => absurd within (Nat.not_lt_of_le wraps)
  · rw [Combat.enoughRounds, Combat.seek_of_none 2 none]
    exact (batched_newRound s ref).arrives 1 known started wraps first

/-- A call that rests between rolls goes on. -/
theorem Rests.arrives {ahead : List TokenRef} (rests : Rests s later ref count ahead)
    (started : (s.combat ref).started = true) (wraps : place ≤ (s.combat ref).turn)
    (first : (s.combat ref).livingFrom? s.table 0 = some place) (rolled : Nat) (rested : Bool) :
    Arrives s later ref place (count + 1)
      (later.takeUpErrand ref .next rested (.resting ahead rolled)) := by
  have arrived : (later.combat ref).rested later.table .next ahead rolled =
      Combat.arrive (2 + 1) ((later.combat ref).continueBatch later.table ahead rolled) :=
    Combat.afterBatch_next _
  rw [takeUpErrand, arrived]
  exact (rests.batched rolled).arrives 2 rests.known started wraps first

theorem Fires.current {fired : Session} {token : TokenRef} (fires : Fires s fired ref place token)
    (started : (s.combat ref).started = true) : (fired.combat ref).current = some token := by
  obtain ⟨rolling, same⟩ := fires.combat
  rw [same, Combat.current, if_pos started]
  exact fires.listed

/-- What a call announces is what its listeners are told. -/
theorem Fires.turn {fired : Session} {token : TokenRef} (fires : Fires s fired ref place token) :
    ((fired.combat ref).round, (fired.token token).id) =
      ((s.combat ref).roundAt place, (s.token token).id) := by
  obtain ⟨rolling, same⟩ := fires.combat
  have named := (fires.rolled token (List.mem_of_getElem? fires.listed)).id
  rw [same, named]

/-- A call that keeps telling of the turn of a place comes along with it. -/
theorem Fires.advances {fired : Session} {token : TokenRef} {already : List (Nat × String)}
    {piece : Session × ErrandStanding} (fires : Fires s fired ref place token) (count : Nat)
    (known : ref < later.combats.length) (same : later.combat ref = fired.combat ref)
    (named : (later.token token).id = (s.token token).id)
    (keeps : later.KeepsTelling already (s.combat ref).listeners token
      ((s.combat ref).roundAt place, (s.token token).id) piece) :
    Advances s ref place count piece (turnsSince later piece.1 ++ already) := by
  obtain ⟨next, standing⟩ := piece
  obtain ⟨combats, ids, more, told, tells⟩ := keeps
  rw [turnsSince_of_append told]
  refine .telling fires (combats ▸ known) ?_ ((ids token).trans named) tells
  rw [Session.combat, combats]
  exact same

theorem Arrives.advances {piece : Session × ErrandStanding}
    (arrives : Arrives s now ref place count piece) (started : (s.combat ref).started = true) :
    Advances s ref place count piece (turnsSince now piece.1) := by
  cases arrives with
  | resting rolled wraps rests silent =>
    rw [turnsSince_of_same silent]
    exact .resting rolled wraps rests
  | raised mishap wraps silent =>
    rw [turnsSince_of_same silent]
    exact .raised mishap wraps
  | @telling fired token fires silent =>
    have keeps := keepsTelling_tellListeners [] fired
      (List.nil_append (s.combat ref).listeners).symm (fires.current started)
    rw [fires.turn] at keeps
    have named := (fires.rolled token (List.mem_of_getElem? fires.listed)).id
    have advances := fires.advances count fires.known rfl named keeps
    rw [List.length_nil, List.replicate_zero, List.append_nil] at advances
    rwa [turnsSince, ← silent]

/-- A call that is taken up goes on as before. -/
theorem Advances.takenUp {piece : Session × ErrandStanding} {told : List (Nat × String)}
    {before : Session} {activity : Activity} (advances : Advances s ref place count piece told)
    (held : (before, .held activity) = flowOfErrand ref .next piece)
    (started : (s.combat ref).started = true)
    (next : (s.combat ref).nextPlace? s.table = some place)
    (undisturbed : before.Undisturbed later ref) (rested : Bool) :
    ∃ piece, later.takeUpActivity rested activity = flowOfErrand ref .next piece ∧
      Advances s ref place (count + 1) piece (turnsSince later piece.1 ++ told) := by
  cases advances with
  | @resting before ahead rolled wraps rests =>
    cases held
    have first := Combat.first_of_nextPlace? next wraps
    refine ⟨later.takeUpErrand ref .next rested (.resting ahead rolled), rfl, ?_⟩
    rw [List.append_nil]
    exact ((rests.undisturbed undisturbed).arrives started wraps first rolled rested).advances
      started
  | raised mishap wraps => cases held
  | @telling fired before token standing told fires known same named tells =>
    cases tells with
    | failed failure split => cases held
    | done => cases held
    | @listening already rest now run hold split =>
      cases held
      have order : (before.combat ref).combatants = (s.combat ref).combatants := by
        obtain ⟨rolling, moved⟩ := fires.combat
        rw [same, moved]
      have here : (later.combat ref) = fired.combat ref := undisturbed.combat.trans same
      have namedLater : (later.token token).id = (s.token token).id := by
        rw [undisturbed.tokens token (order ▸ List.mem_of_getElem? fires.listed)]
        exact named
      have isCurrent : (later.combat ref).current = some token := by
        rw [here]
        exact fires.current started
      have turn : ((later.combat ref).round, (later.token token).id) =
          ((s.combat ref).roundAt place, (s.token token).id) := by
        rw [here, namedLater, ← fires.turn, (fires.rolled token
          (List.mem_of_getElem? fires.listed)).id]
      have keeps : later.KeepsTelling _ _ _ _
          (later.takeUpErrand ref .next rested (.listening token rest run hold)) :=
        keepsTelling_takeUpErrand split isCurrent rested
      rw [turn] at keeps
      refine ⟨later.takeUpErrand ref .next rested (.listening token rest run hold), rfl, ?_⟩
      exact fires.advances (count + 1) (undisturbed.known known) here namedLater keeps

/-! ## Whole calls -/

/-- Whatever others do meanwhile, a call with which nobody interferes leads to the next place. -/
theorem Course.advances {flow : Session × Flow} {told : List (Nat × String)}
    (course : Course s ref count flow told) (known : ref < s.combats.length)
    (started : (s.combat ref).started = true) (someone : (s.combat ref).anyAlive s.table = true)
    (next : (s.combat ref).nextPlace? s.table = some place) :
    ∃ piece, flow = flowOfErrand ref .next piece ∧ Advances s ref place count piece told := by
  induction course with
  | called =>
    obtain ⟨piece, called, arrives⟩ := arrives_nextTurn known started someone next
    refine ⟨piece, called, ?_⟩
    rw [called, session_flowOfErrand]
    exact arrives.advances started
  | takenUp earlier later rested undisturbed inductionHypothesis =>
    obtain ⟨piece, held, advances⟩ := inductionHypothesis
    obtain ⟨more, taken, along⟩ := advances.takenUp held started next undisturbed rested
    refine ⟨more, taken, ?_⟩
    rw [taken, session_flowOfErrand]
    exact along

/-- Each time that a call is taken up between two rolls fewer combatants are ahead, and the
listeners come to their end. -/
theorem Arrives.finishes {now : Session} {count : Nat} {piece : Session × ErrandStanding}
    (arrives : Arrives s now ref place count piece) (started : (s.combat ref).started = true)
    (next : (s.combat ref).nextPlace? s.table = some place) :
    Finishes (StandBy ref) (flowOfErrand ref .next piece) := by
  cases arrives with
  | telling fires silent => exact finishes_tellListeners (fun _ _ allowed => allowed.2) _ _
  | raised mishap wraps silent => exact Finishes.done _ _
  | @resting held ahead rolled wraps rests silent =>
    have few := rests.few
    refine Finishes.held held _ fun later rested allowed => ?_
    have still := rests.undisturbed allowed.1
    have first := Combat.first_of_nextPlace? next wraps
    exact (still.arrives started wraps first rolled rested).finishes started next
termination_by ((s.combat ref).candidates s.table).length - count

/-- A hero who waits for a roll, a felled orc and a goblin whose turn it is; two listeners. -/
def trio : Session where
  table.board.roster := [
    { id := "hero", name := "Hero", autoInitiative := true },
    { id := "orc", name := "Orc", hp := 0, initiative := some 12 },
    { id := "goblin", name := "Goblin", initiative := some 7 }]
  table.dice.source := .listed [14]
  combats := [{ combatants := [0, 1, 2], listeners := [{}, {}], round := 1, turn := 2,
                started := true }]

end TurnScript.Session
