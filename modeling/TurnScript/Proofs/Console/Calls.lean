import TurnScript.Console.Basic
import TurnScript.Proofs.Combat.Pieces
import TurnScript.Proofs.Session.Advancing

/-!
# Calls of a console

A console calls for turns, for runs and for rolls, and each call is taken up as often as it is held.
No piece of a call writes to the archive or changes who is told of turns. A roll fails for want of a
score or of dice, or for a pause that is too long, and for nothing else. A call for a turn is lost
only where nobody is alive.
-/

namespace TurnScript

namespace Combat

variable {c after : Combat} {table : Table} {ahead : List TokenRef} {rolled : Nat}
  {errand : Errand} {mishap : Mishap}

/-! ## Rolls that fail -/

/-- A roll fails for a token without a score, for dice that show nothing, or for the pause behind
it. -/
inductive IsRollMishap : Mishap → Prop
  | unscored : IsRollMishap (.missingScore Ability.dexterity.name)
  | unshown (error : RollError) : IsRollMishap (.roll error)
  | overlong : IsRollMishap .overlong

theorem isRollMishap_of_rollAhead (delay : Int) (table : Table) (ahead : List TokenRef)
    (rolled : Nat) (failed : (rollAhead delay table ahead rolled).1 = .failed mishap) :
    IsRollMishap mishap := by
  fun_induction rollAhead delay table ahead rolled with
  | case1 | case6 => cases failed
  | case2 _ _ _ _ _ _ inductionHypothesis => exact inductionHypothesis failed
  | case3 =>
    cases failed
    exact .unscored
  | case4 _ _ _ _ _ _ _ _ error =>
    cases failed
    exact .unshown error
  | case5 =>
    cases failed
    exact .overlong
  | case7 _ _ _ _ _ _ _ _ _ _ _ _ _ inductionHypothesis => exact inductionHypothesis failed

theorem isRollMishap_of_continueBatch
    (failed : (c.continueBatch table ahead rolled).result = .failed mishap) :
    IsRollMishap mishap := by
  rw [result_continueBatch] at failed
  exact isRollMishap_of_rollAhead _ _ _ _ failed

theorem isRollMishap_of_beginBatch (failed : (c.beginBatch table).result = .failed mishap) :
    IsRollMishap mishap := by
  unfold beginBatch at failed
  split at failed
  · cases failed
  · exact isRollMishap_of_continueBatch failed

/-! ## Searches that are lost -/

theorem Reorders.anyAlive_eq (reorders : c.Reorders after) (table : Table) :
    after.anyAlive table = c.anyAlive table :=
  reorders.perm.any_eq

/-- A search that gives up leaves nobody alive. -/
theorem nobody_of_seek (adrift : (seek enoughRounds c table).result = .adrift) :
    c.anyAlive (seek enoughRounds c table).table = false := by
  rw [anyAlive_of_keepsLives (seek_keepsLives enoughRounds c table)]
  exact (isLost_of_adrift adrift).1

theorem announce_ne_adrift (c : Combat) (table : Table) : (c.announce table).result ≠ .adrift := by
  unfold announce
  split <;> rintro ⟨⟩

/-- An errand that is taken up gives up only where it leaves nobody alive. -/
theorem nobody_of_rested (adrift : (c.rested table errand ahead rolled).result = .adrift) :
    (c.rested table errand ahead rolled).combat.anyAlive
      (c.rested table errand ahead rolled).table = false := by
  rw [(takesUp_rested c table errand ahead rolled).reorders.anyAlive_eq]
  have spared := c.continueBatch_spares table ahead rolled
  unfold rested at adrift ⊢
  generalize c.continueBatch table ahead rolled = batch at spared adrift ⊢
  obtain ⟨between, told, count | _ | _⟩ := batch
  · cases errand with
    | roll | join => cases adrift
    | start => exact absurd adrift (announce_ne_adrift _ _)
    | next =>
      obtain ⟨rolling, same⟩ := spared.combat
      obtain rfl : between = { c with rolling } := same
      rw [afterBatch_next, arrive] at adrift ⊢
      split at adrift
      · exact absurd adrift (announce_ne_adrift _ _)
      · next dead =>
        have nobody := nobody_of_seek adrift
        rwa [if_neg dead]
  · cases adrift
  · cases adrift

/-- A call for a turn does not give up at once. -/
theorem next_ne_adrift (c : Combat) (table : Table) : (c.next table).2.result ≠ .adrift := by
  intro adrift
  cases started : c.started with
  | false =>
    have opens : (c.next table).2 = afterBatch .start (c.beginBatch table) := by
      simp [Combat.next, started, start]
    rw [opens] at adrift
    generalize c.beginBatch table = batch at adrift
    obtain ⟨between, told, count | _ | _⟩ := batch
    · exact announce_ne_adrift _ _ adrift
    · cases adrift
    · cases adrift
  | true =>
    cases someone : c.anyAlive table with
    | false =>
      have ends : (c.next table).2 = ⟨c, table, .ended (.turnOf none)⟩ := by
        simp [Combat.next, started, someone]
      rw [ends] at adrift
      cases adrift
    | true =>
      have seeks : (c.next table).2 = seek enoughRounds c table := by
        simp [Combat.next, started, someone]
      rw [seeks] at adrift
      have nobody := (isLost_of_adrift adrift).1
      rw [someone] at nobody
      cases nobody

end Combat

namespace Session

variable {s middle next : Session}

/-! ## What calls leave alone -/

/-- Who is told of the turns of each combat. -/
def audiences (s : Session) : List (List Listener) :=
  s.combats.map (·.listeners)

/-- A session in which the stored queues are as they were, the same listeners are told of turns, and
the engine is not newly held for nobody. -/
structure Upholds (s next : Session) : Prop where
  rows : next.archive.rows = s.archive.rows
  audiences : next.audiences = s.audiences
  held : next.heldForNobody = s.heldForNobody

theorem Upholds.refl (s : Session) : s.Upholds s := ⟨rfl, rfl, rfl⟩

theorem Upholds.trans (first : s.Upholds middle) (second : middle.Upholds next) :
    s.Upholds next :=
  ⟨second.rows.trans first.rows, second.audiences.trans first.audiences,
    second.held.trans first.held⟩

/-- What has nothing to do with combats leaves their listeners alone. -/
theorem Quiet.upholds (quiet : s.Quiet next) : s.Upholds next :=
  ⟨quiet.rows, congrArg (List.map Combat.listeners) quiet.combats, quiet.held⟩

theorem upholds_withCombat (s : Session) (ref : CombatRef) {c : Combat}
    (same : c.listeners = (s.combat ref).listeners) (table : Table) :
    s.Upholds (s.withCombat ref c table) := by
  refine ⟨rfl, ?_, rfl⟩
  change (s.combats.set ref c).map Combat.listeners = s.combats.map Combat.listeners
  by_cases known : ref < s.combats.length
  · have inside : ref < (s.combats.map Combat.listeners).length := by
      rwa [List.length_map]
    have listed : c.listeners = (s.combats.map Combat.listeners)[ref] := by
      simp [same, combat, List.getD, known]
    rw [List.map_set, listed, List.set_getElem_self]
  · rw [List.set_eq_of_length_le (Nat.le_of_not_lt known)]

theorem upholds_tellListener (s : Session) (round : Nat) (token : TokenRef)
    (listener : Listener) : s.Upholds (s.tellListener round token listener).1 := by
  have emitted : s.Upholds (s.emit (.turnBegan round (s.token token).id)) := ⟨rfl, rfl, rfl⟩
  unfold tellListener
  dsimp only
  split
  · exact emitted
  · split
    · exact emitted.trans (quiet_hearTurn _ token).upholds
    · exact emitted

theorem upholds_tellListeners (s : Session) (ref : CombatRef) (token : TokenRef)
    (listeners : List Listener) : s.Upholds (tellListeners ref token s listeners).1 := by
  induction listeners generalizing s with
  | nil => exact .refl s
  | cons listener listeners inductionHypothesis =>
    have told := s.upholds_tellListener (s.combat ref).round token listener
    unfold tellListeners
    split
    · next heard =>
      rw [heard] at told
      exact told.trans (inductionHypothesis _)
    · next heard =>
      rw [heard] at told
      exact told
    · next heard =>
      rw [heard] at told
      exact told

theorem upholds_attend (s : Session) (ref : CombatRef) {step : Combat.Step Combat.Stage}
    (reorders : (s.combat ref).Reorders step.combat) : s.Upholds (s.attend ref step).1 := by
  have placed := s.upholds_withCombat ref reorders.listeners step.table
  unfold attend
  dsimp only
  split
  · exact placed
  · exact placed.trans (upholds_tellListeners _ _ _ _)
  · exact placed
  · exact placed
  · exact placed

theorem upholds_takeUpErrand (s : Session) (ref : CombatRef) (errand : Errand) (rested : Bool)
    (hold : ErrandHold) : s.Upholds (s.takeUpErrand ref errand rested hold).1 := by
  cases hold with
  | resting ahead rolled => exact s.upholds_attend ref (Combat.takesUp_rested _ _ _ _ _).reorders
  | adrift => exact .refl s
  | listening token listeners run hold =>
    have heard : s.Upholds (hearRun run (s.takeUp run rested hold)).1 :=
      (quiet_hearRun (s.quiet_takeUp run rested hold)).upholds
    simp only [takeUpErrand]
    split
    · next found =>
      rw [found] at heard
      exact heard.trans (upholds_tellListeners _ _ _ _)
    · next found =>
      rw [found] at heard
      exact heard
    · next found =>
      rw [found] at heard
      exact heard

theorem upholds_run (s : Session) (subject : TokenRef) (script : List Action) :
    s.Upholds (s.run subject script).1 := by
  unfold run
  split
  · exact .refl s
  · next ref begun submitted =>
    rw [session_flowOfRun]
    exact ((quiet_submit submitted).trans (begun.quiet_follow ref)).upholds

theorem upholds_nextTurn (s : Session) (ref : CombatRef) : s.Upholds (s.nextTurn ref).1 := by
  unfold nextTurn
  rw [session_flowOfErrand]
  exact s.upholds_attend ref (Combat.setsOut_next _ _).reorders

theorem upholds_rollInitiative (s : Session) (ref : CombatRef) :
    s.Upholds (s.rollInitiative ref).1 := by
  unfold rollInitiative
  rw [session_flowOfErrand]
  exact s.upholds_attend ref
    (Combat.setsOut_afterBatch .roll (Combat.begins_beginBatch _ _)).reorders

/-- A single listener leaves none to be told behind it. -/
theorem held_of_tellListeners {ref : CombatRef} {token : TokenRef} {listener : Listener}
    {hold : ErrandHold} (held : (tellListeners ref token s [listener]).2 = .held hold) :
    ∃ run again, hold = .listening token [] run again := by
  unfold tellListeners at held
  split at held
  · cases held
  · cases held
  · cases held
    exact ⟨_, _, rfl⟩

end Session

/-! ## Pieces of calls -/

/-- Whether an activity goes on without end, and nothing else can go on. -/
def Activity.isAdrift : Activity → Bool
  | .errand _ _ .adrift => true
  | _ => false

namespace Console

/-- In what a call of a console can be held. -/
inductive IsPending : Call → Activity → Prop
  | run (ref : RunRef) (hold : Hold) : IsPending .run (.run ref hold)
  /-- A call for a turn, between two rolls. -/
  | resting (errand : Errand) (ahead : List TokenRef) (rolled : Nat) :
      IsPending .next (.errand combatRef errand (.resting ahead rolled))
  /-- A call for a turn, in the run of its only listener. -/
  | listening (errand : Errand) (token : TokenRef) (run : RunRef) (hold : Hold) :
      IsPending .next (.errand combatRef errand (.listening token [] run hold))
  | adrift (errand : Errand) : IsPending .next (.errand combatRef errand .adrift)
  | rolling (ahead : List TokenRef) (rolled : Nat) :
      IsPending .roll (.errand combatRef .roll (.resting ahead rolled))

/-- A session without anyone alive in its combat. -/
def IsDeserted (s : Session) : Prop :=
  (s.combat combatRef).anyAlive s.table = false

/-- What a piece of a call of a console can come to. A call is lost only in certain sessions. -/
inductive Comes (Lost : Session → Prop) (call : Call) : Session × Flow → Prop
  /-- It is over; a roll that failed has failed as rolls do. -/
  | ended (s : Session) {answer : Answer}
      (fails : call = .roll → ∀ failure, answer = .failed failure →
        ∃ mishap, failure = .mishap mishap ∧ Combat.IsRollMishap mishap) :
      Comes Lost call (s, .over answer)
  | held (s : Session) {activity : Activity} (pending : IsPending call activity)
      (lost : activity.isAdrift = true → Lost s) : Comes Lost call (s, .held activity)

/-- The only listener of a console has the script of every turn run. -/
def onlyListener : Listener := { runsScripts := true }

variable {s : Session} {ref : RunRef} {Lost : Session → Prop}

theorem combat_of_audiences (listened : s.audiences = [[onlyListener]]) :
    combatRef < s.combats.length ∧ (s.combat combatRef).listeners = [onlyListener] := by
  obtain ⟨c, only, same⟩ := List.map_eq_singleton_iff.mp listened
  rw [Session.combat, only]
  exact ⟨Nat.one_pos, same⟩

theorem comes_flowOfRun (standing : Session × Standing) :
    Comes Lost .run (Session.flowOfRun ref standing) := by
  obtain ⟨next, (mishap | summary) | hold⟩ := standing
  · exact .ended next Call.noConfusion
  · exact .ended next Call.noConfusion
  · exact .held next (.run ref hold) Bool.noConfusion

theorem comes_run (s : Session) (subject : TokenRef) (script : List Action) :
    Comes Lost .run (s.run subject script) := by
  unfold Session.run
  split
  · exact .ended s Call.noConfusion
  · exact comes_flowOfRun _

/-- A call for a turn that has told its only listener has nobody left to tell. -/
theorem comes_tellListeners (s : Session) (errand : Errand) (token : TokenRef)
    (listener : Listener) :
    Comes Lost .next (Session.flowOfErrand combatRef errand
      (Session.tellListeners combatRef token s [listener])) := by
  have left (hold : ErrandHold)
      (held : (Session.tellListeners combatRef token s [listener]).2 = .held hold) :
      ∃ run again, hold = .listening token [] run again := Session.held_of_tellListeners held
  generalize Session.tellListeners combatRef token s [listener] = told at left
  obtain ⟨next, (failure | how) | hold⟩ := told
  · exact .ended next Call.noConfusion
  · exact .ended next Call.noConfusion
  · obtain ⟨run, again, rfl⟩ := left hold rfl
    exact .held next (.listening errand token run again) Bool.noConfusion

/-- A piece of a call for a turn, on a combat with a single listener. -/
theorem comes_attend (s : Session) {step : Combat.Step Combat.Stage}
    (listened : step.combat.listeners = [onlyListener])
    (lost : step.result = .adrift → Lost (s.withCombat combatRef step.combat step.table))
    (errand : Errand) :
    Comes Lost .next (Session.flowOfErrand combatRef errand (s.attend combatRef step)) := by
  unfold Session.attend
  dsimp only
  split
  · exact .held _ (.resting errand _ _) Bool.noConfusion
  · rw [listened]
    exact comes_tellListeners _ errand _ onlyListener
  · exact .ended _ Call.noConfusion
  · exact .ended _ Call.noConfusion
  · next adrift => exact .held _ (.adrift errand) fun _ => lost adrift

/-- A piece of a roll. -/
theorem comes_roll (s : Session) {batch : Combat.Step Combat.Batch}
    (fails : ∀ mishap, batch.result = .failed mishap → Combat.IsRollMishap mishap) :
    Comes Lost .roll (Session.flowOfErrand combatRef .roll
      (s.attend combatRef (Combat.afterBatch .roll batch))) := by
  obtain ⟨c, table, count | ⟨ahead, rolled⟩ | mishap⟩ := batch
  · exact .ended _ fun _ _ failed => Answer.noConfusion failed
  · exact .held _ (.rolling ahead rolled) Bool.noConfusion
  · refine .ended _ fun _ failure failed => ⟨mishap, ?_, fails mishap rfl⟩
    exact (Answer.failed.inj failed).symm

theorem comes_rollInitiative (s : Session) : Comes Lost .roll (s.rollInitiative combatRef) :=
  comes_roll s fun _ => Combat.isRollMishap_of_beginBatch

variable (listened : s.audiences = [[onlyListener]])
include listened

/-- A call for a turn is not lost at once. -/
theorem comes_nextTurn : Comes (fun _ => False) .next (s.nextTurn combatRef) := by
  have reorders := (Combat.setsOut_next (s.combat combatRef) s.table).reorders
  have listeners := reorders.listeners.trans (combat_of_audiences listened).2
  exact comes_attend s listeners (Combat.next_ne_adrift _ _) _

/-- Whatever a call is held in, taking it up leaves it held in something of the kind, or over. -/
theorem comes_takeUp {call : Call} {activity : Activity} (pending : IsPending call activity)
    (rested : Bool) :
    Comes (fun next => activity.isAdrift = false → IsDeserted next) call
      (s.takeUpActivity rested activity) := by
  obtain ⟨known, listeners⟩ := combat_of_audiences listened
  cases pending with
  | run ref hold => exact comes_flowOfRun _
  | resting errand ahead rolled =>
    have reorders :=
      (Combat.takesUp_rested (s.combat combatRef) s.table errand ahead rolled).reorders
    refine comes_attend s (reorders.listeners.trans listeners) (fun adrift _ => ?_) errand
    rw [IsDeserted, Session.combat_withCombat known]
    exact Combat.nobody_of_rested adrift
  | listening errand token run hold =>
    simp only [Session.takeUpActivity, Session.takeUpErrand]
    generalize Session.hearRun run (s.takeUp run rested hold) = heard
    obtain ⟨next, _ | failure | ⟨again, more⟩⟩ := heard
    · exact .ended _ Call.noConfusion
    · exact .ended _ Call.noConfusion
    · exact .held _ (.listening errand token again more) Bool.noConfusion
  | adrift errand => exact .held s (.adrift errand) fun _ going => Bool.noConfusion going
  | rolling ahead rolled => exact comes_roll s fun _ => Combat.isRollMishap_of_continueBatch

omit listened in
theorem upholds_takeUp {call : Call} {activity : Activity} (pending : IsPending call activity)
    (rested : Bool) : s.Upholds (s.takeUpActivity rested activity).1 := by
  cases pending with
  | run ref hold =>
    rw [Session.takeUpActivity, Session.session_flowOfRun]
    exact (s.quiet_takeUp ref rested hold).upholds
  | resting | listening | adrift | rolling =>
    rw [Session.takeUpActivity, Session.session_flowOfErrand]
    exact s.upholds_takeUpErrand combatRef _ rested _

end Console
end TurnScript
