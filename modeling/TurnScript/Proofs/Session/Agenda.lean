import Mathlib.Logic.Relation
import TurnScript.Proofs.Session.Following
import TurnScript.Session.Agenda

/-!
# Order on the agenda

Every run that is not over is held by one activity on the agenda, which is either ready or waits.
What waits does so for a reason that fits what its run is held in: the end of a pause, or the gate
of a part that the host plays. As soon as the reason is gone it is ready. So a run whose pauses
have been called off waits for nothing but a gate.
-/

namespace TurnScript

/-- A call of a session. -/
inductive Request where
  | run (subject : TokenRef) (script : List Action)
  | turn (subject : TokenRef) (isNew : Bool)
  | dispatch (subject : TokenRef) (action : Action)
  | move (subject : TokenRef) (payload : Json)
  | attack (subject : TokenRef) (payload : Json)
  | use (subject : TokenRef) (payload : Json)
  | roll (combat : CombatRef)
  | start (combat : CombatRef)
  | next (combat : CombatRef)
  | join (combat : CombatRef) (token : TokenRef)
  | runForNobody
  | turnForNobody (isNew : Bool)
  | dispatchForNobody (action : Action)
  | moveForNobody (payload : Json)
  | attackForNobody (payload : Json)
  | useForNobody (payload : Json)

/-- What a call of a session begins with. -/
def Request.begin (request : Request) (s : Session) : Session × Flow :=
  match request with
  | run subject script => s.run subject script
  | turn subject isNew => s.turn subject isNew
  | dispatch subject action => s.dispatchAlone subject action
  | move subject payload => s.moveAlone subject payload
  | attack subject payload => s.attackAlone subject payload
  | use subject payload => s.useAlone subject payload
  | roll combat => s.rollInitiative combat
  | start combat => s.startCombat combat
  | next combat => s.nextTurn combat
  | join combat token => s.joinCombat combat token
  | runForNobody => s.runForNobody
  | turnForNobody isNew => s.turnForNobody isNew
  | dispatchForNobody action => s.dispatchForNobody action
  | moveForNobody payload => s.moveForNobody payload
  | attackForNobody payload => s.attackForNobody payload
  | useForNobody payload => s.useForNobody payload

namespace Session

variable {s : Session} {holds : List (RunRef × Hold)}

theorem leaves_playAlone {π : Type} {payload : Record.Checked π} {play : π → Session × Progress}
    (plays : ∀ payload, s.Uses false (play payload)) (minds : s.engine.Minds none holds) :
    s.Leaves (s.playAlone payload play).1 holds (s.playAlone payload play).2.hold? := by
  unfold playAlone
  split
  · exact leaves_flowOfUse (plays _) minds none
  · exact (Keeps.refl s).leaves minds

/-- A call leaves behind at most one run more that is held. -/
theorem leaves_begin (minds : s.engine.Minds none holds) (request : Request) :
    s.Leaves (request.begin s).1 holds (request.begin s).2.hold? := by
  cases request with
  | run subject script => exact leaves_run minds subject script
  | turn subject isNew => exact leaves_turn minds subject isNew
  | dispatch subject action =>
    exact leaves_flowOfUse (s.uses_dispatch subject action false) minds (some action.name)
  | move subject payload => exact leaves_playAlone (fun _ => s.uses_resolved _) minds
  | attack subject payload => exact leaves_playAlone (s.uses_playAttack subject) minds
  | use subject payload => exact leaves_playAlone (s.uses_playItem subject) minds
  | roll combat => exact leaves_flowOfErrand (leaves_attend minds combat _)
  | start combat => exact leaves_flowOfErrand (leaves_attend minds combat _)
  | next combat => exact leaves_flowOfErrand (leaves_attend minds combat _)
  | join combat token => exact leaves_flowOfErrand (leaves_attend minds combat _)
  | runForNobody => exact Keeps.leaves ⟨rfl, rfl⟩ minds
  | turnForNobody isNew => cases isNew <;> exact (Keeps.refl s).leaves minds
  | dispatchForNobody action =>
    exact leaves_flowOfUse (uses_dispatchBy (s.uses_playForNobody _ _) (s.uses_playForNobody _ _)
      (s.uses_playForNobody _ _) : s.Uses false _) minds (some action.name)
  | moveForNobody payload => exact leaves_playAlone (fun _ => s.uses_resolved _) minds
  | attackForNobody payload => exact leaves_playAlone (fun _ => s.uses_resolved _) minds
  | useForNobody payload => exact leaves_playAlone (fun _ => s.uses_resolved _) minds

end Session

namespace Agenda

variable {a next : Agenda} {ref : RunRef} {hold : Hold}

/-- The activities on an agenda. -/
def activities (a : Agenda) : List Activity :=
  a.ready.map (·.activity) ++ a.waiting.map (·.activity)

/-- The runs that are held, and in what. -/
def holds (a : Agenda) : List (RunRef × Hold) :=
  a.activities.filterMap Activity.hold?

/-- The first activity of the row, and the others, hold all the runs that are held. -/
theorem holds_of_row {first : Ready} {rest : List Ready} (row : a.ready = first :: rest) :
    a.holds = first.activity.hold?.toList ++ ({ a with ready := rest } : Agenda).holds := by
  cases holding : first.activity.hold? <;> simp [holds, activities, row, holding]

/-- A wait that fits what a run is held in. -/
def Suits (ref : RunRef) (hold : Hold) (wait : Wait) : Prop :=
  (∃ due, wait = .pause due (some ref)) ∨
    ∃ gate part cue asAttack, hold = .call (.cued part cue asAttack) ∧ wait = .gate gate

/-- Every run that is not over is held by one activity, or it is an extra one that is about to be.
What waits with a run has a wait that fits what its run is held in. -/
structure Kept (a : Agenda) (extra : Option (RunRef × Hold)) : Prop where
  minds : a.session.engine.Minds none (extra.toList ++ a.holds)
  suits : ∀ w ∈ a.waiting, ∀ ref hold, w.activity.hold? = some (ref, hold) → Suits ref hold w.wait

/-- All runs are kept, and what waits with a run has not been released. -/
structure Orderly (a : Agenda) (extra : Option (RunRef × Hold)) : Prop extends Kept a extra where
  unreleased : ∀ w ∈ a.waiting, ∀ ref hold, w.activity.hold? = some (ref, hold) →
    released? a.session w.wait = none

/-- What an activity with a run waits for is the end of a pause, or a gate, or its turn. -/
theorem waitOf_cases {s : Session} {now : Int} {activity : Activity}
    (holds : activity.hold? = some (ref, hold)) (wants : s.Wants ref hold) :
    s.waitOf now activity = .turn ∨
      Suits ref hold (s.waitOf now activity) ∧ released? s (s.waitOf now activity) = none := by
  have same : s.waitOf now activity = s.waitOfRun now ref hold := by
    cases activity with
    | use => cases holds
    | run other otherHold =>
      obtain ⟨rfl, rfl⟩ := Prod.mk.inj (Option.some.inj holds)
      rfl
    | errand combat errand errandHold =>
      cases errandHold with
      | resting | adrift => cases holds
      | listening token listeners other otherHold =>
        obtain ⟨rfl, rfl⟩ := Prod.mk.inj (Option.some.inj holds)
        rfl
  rw [same]
  have paused : ∀ delay, s.unpaced ref = false →
      Session.waitFor now delay (.pause · (some ref)) = .turn ∨
        Suits ref hold (Session.waitFor now delay (.pause · (some ref))) ∧
          released? s (Session.waitFor now delay (.pause · (some ref))) = none := by
    intro delay paced
    unfold Session.waitFor
    split
    · exact .inl rfl
    · exact .inr ⟨.inl ⟨_, rfl⟩, by simp [released?, paced]⟩
  cases hold with
  | pause => exact paused _ wants
  | call call =>
    cases call with
    | walk mover here ahead goal => exact paused _ wants
    | cued part cue asAttack =>
      obtain ⟨gate, named, closed⟩ := wants
      refine .inr ⟨.inr ⟨gate, part, cue, asAttack, rfl, ?_⟩, ?_⟩
      · simp [Session.waitOfRun, Session.waitOfCall, named]
      · simpa [Session.waitOfRun, Session.waitOfCall, named, released?] using closed

/-! ## What keeps the order -/

/-- Making some of what waits ready drops no activity. -/
theorem activities_perm_of_moved {ready : List Ready} (isMoved : Waiting → Bool)
    (moved : ready.map (·.activity) = (a.waiting.filter isMoved).map (·.activity)) :
    a.activities.Perm ({ a with
      ready := a.ready ++ ready
      waiting := a.waiting.filter fun w => !isMoved w } : Agenda).activities := by
  simp only [activities, List.map_append, moved, List.append_assoc]
  refine List.Perm.append_left _ ?_
  rw [← List.map_append]
  exact ((List.filter_append_perm isMoved a.waiting).map _).symm

/-- What is released becomes ready, and nothing is dropped. -/
theorem activities_release (a : Agenda) : a.activities.Perm a.release.activities := by
  have moved : (a.waiting.filterMap fun w => (released? a.session w.wait).map fun found =>
        (⟨found.1, found.2, w.alarm, w.name, w.activity⟩ : Ready)).map (·.activity) =
      (a.waiting.filter fun w => (released? a.session w.wait).isSome).map (·.activity) := by
    induction a.waiting with
    | nil => rfl
    | cons w rest inductionHypothesis =>
      cases free : released? a.session w.wait <;> simpa [free] using inductionHypothesis
  have same := activities_perm_of_moved (fun w => (released? a.session w.wait).isSome) moved
  simp only [Option.not_isSome] at same
  exact same

/-- What an alarm wakes becomes ready, and nothing is dropped. -/
theorem activities_ring (a : Agenda) (alarm : Alarm) :
    a.activities.Perm (a.ring alarm).activities := by
  have moved : ((a.waiting.filter fun w => w.alarm == some alarm.serial).map fun w =>
        (⟨lapsOf w.wait, .elapsed, w.alarm, w.name, w.activity⟩ : Ready)).map (·.activity) =
      (a.waiting.filter fun w => w.alarm == some alarm.serial).map (·.activity) := by
    rw [List.map_map]
    rfl
  exact activities_perm_of_moved (fun w => w.alarm == some alarm.serial) moved

/-- What is released becomes ready, and order is restored. -/
theorem Kept.release {extra : Option (RunRef × Hold)} (kept : a.Kept extra) :
    a.release.Orderly extra := by
  refine ⟨⟨kept.minds.perm ((a.activities_release.filterMap _).append_left _), ?_⟩, ?_⟩
  · intro w member
    exact kept.suits w (List.mem_filter.mp member).1
  · intro w member ref hold _
    exact Option.isNone_iff_eq_none.mp (List.mem_filter.mp member).2

/-- An alarm that goes off keeps the order. -/
theorem Orderly.ring (orderly : a.Orderly none) (alarm : Alarm) : (a.ring alarm).Orderly none := by
  refine ⟨⟨orderly.minds.perm ((a.activities_ring alarm).filterMap _), ?_⟩, ?_⟩
  · intro w member
    exact orderly.suits w (List.mem_filter.mp member).1
  · intro w member
    exact orderly.unreleased w (List.mem_filter.mp member).1

/-- An activity begins to wait, or it is ready at once. -/
theorem await_cases (a : Agenda) (name : String) (activity : Activity) :
    (∃ entry : Ready, entry.activity = activity ∧
      a.await name activity = { a with ready := a.ready ++ [entry] }) ∨
    ∃ entry : Waiting, ∃ alarms alarmsSet, entry.activity = activity ∧
      entry.wait = a.session.waitOf a.now activity ∧ entry.wait ≠ .turn ∧
      a.await name activity =
        { a with waiting := a.waiting ++ [entry], alarms := alarms, alarmsSet := alarmsSet } := by
  unfold await
  split
  · exact .inl ⟨_, rfl, rfl⟩
  · next wait later =>
    split
    · exact .inr ⟨⟨_, none, name, activity⟩, a.alarms, a.alarmsSet, rfl, rfl, later, rfl⟩
    · exact .inr ⟨⟨_, some a.alarmsSet, name, activity⟩, _, _, rfl, rfl, later, rfl⟩

/-- An extra run is held by an activity that is ready, or waits for a reason. -/
theorem Orderly.await {activity : Activity} (orderly : a.Orderly activity.hold?)
    (wants : ∀ ref hold, activity.hold? = some (ref, hold) → a.session.Wants ref hold)
    (name : String) : (a.await name activity).Orderly none := by
  have held : (activity.hold?.toList ++ a.holds).Perm
      ((activity :: a.activities).filterMap Activity.hold?) := by
    cases holds : activity.hold? <;> simp [Agenda.holds, holds]
  have minds := orderly.minds.perm held
  rcases a.await_cases name activity with
    ⟨entry, rfl, awaited⟩ | ⟨entry, alarms, alarmsSet, rfl, wait, later, awaited⟩
  · have listed : (entry.activity :: a.activities).Perm
        ({ a with ready := a.ready ++ [entry] } : Agenda).activities := by
      simpa [activities] using List.perm_middle.symm
    rw [awaited]
    exact ⟨⟨minds.perm (listed.filterMap _), orderly.suits⟩, orderly.unreleased⟩
  · have listed : (entry.activity :: a.activities).Perm
        ({ a with waiting := a.waiting ++ [entry] } : Agenda).activities := by
      simpa [activities] using (List.perm_append_singleton entry.activity a.activities).symm
    have waits : ∀ ref hold, entry.activity.hold? = some (ref, hold) →
        Suits ref hold entry.wait ∧ released? a.session entry.wait = none := by
      intro ref hold holds
      rw [wait] at later ⊢
      exact (waitOf_cases holds (wants ref hold holds)).resolve_left later
    rw [awaited]
    refine ⟨⟨minds.perm (listed.filterMap _), ?_⟩, ?_⟩
    · intro w member ref hold holds
      rcases List.mem_append.mp member with before | last
      · exact orderly.suits w before ref hold holds
      · obtain rfl := List.mem_singleton.mp last
        exact (waits ref hold holds).1
    · intro w member ref hold holds
      rcases List.mem_append.mp member with before | last
      · exact orderly.unreleased w before ref hold holds
      · obtain rfl := List.mem_singleton.mp last
        exact (waits ref hold holds).2

/-- An agenda is in order once it has been put in place how a call has come along. -/
theorem orderly_settleCall {piece : Session × Flow}
    (suits : ∀ w ∈ a.waiting, ∀ ref hold, w.activity.hold? = some (ref, hold) →
      Suits ref hold w.wait)
    (leaves : a.session.Leaves piece.1 a.holds piece.2.hold?) (name : String) :
    (a.settleCall name piece).Orderly none := by
  obtain ⟨session, flow⟩ := piece
  have kept : ({ a with session } : Agenda).Kept flow.hold? := ⟨leaves.minds, suits⟩
  rcases flow with answer | activity
  · have restored := kept.release
    exact ⟨⟨restored.minds, restored.suits⟩, restored.unreleased⟩
  · exact kept.release.await leaves.wants name

/-! ## All that happens on an agenda -/

/-- Something happens on an agenda: a call is made, the table or the archive or the gates are
changed, someone stops the engine, what is ready is taken up, or time passes. -/
inductive Changes (a : Agenda) : Agenda → Prop where
  | call (name : String) (request : Request) : Changes a (a.call name request.begin)
  | act (change : Session → Session) (keeps : a.session.Keeps (change a.session)) :
      Changes a (a.act change)
  | stop : Changes a (a.act fun s => s.stop.1)
  | step {next : Agenda} (taken : a.step? = some next) : Changes a next
  | passTo (moment : Int) : Changes a (a.passTo moment)
  | setClock (moment : Int) : Changes a (a.setClock moment)
  | clear : Changes a { a with answers := [], session := { a.session with trace := [] } }

/-- An agenda that another one can come to. -/
def Comes : Agenda → Agenda → Prop :=
  Relation.ReflTransGen Changes

/-- An agenda that a session can come to from its start. -/
def Reached (a : Agenda) : Prop :=
  ∃ session : Session, session.engine = {} ∧ Comes { session } a

/-- The first activity of the row goes around once more, or it is taken up. -/
theorem step?_cases (taken : a.step? = some next) :
    ∃ first rest alarms ahead, a.ready = first :: rest ∧
      ((∃ laps, first.laps = laps + 1 ∧
        next = { a with ready := rest ++ [{ first with laps }], alarms := alarms,
                        ahead := ahead }) ∨
      first.laps = 0 ∧ ∃ rested,
        next = ({ a with ready := rest, alarms := alarms, ahead := ahead } : Agenda).settleCall
          first.name (a.session.takeUpActivity rested first.activity)) := by
  have begun : ∃ alarms ahead, a.beginRound = { a with alarms := alarms, ahead := ahead } := by
    unfold beginRound
    split
    · exact ⟨_, _, rfl⟩
    · exact ⟨a.alarms, a.ahead, rfl⟩
  obtain ⟨alarms, ahead, begun⟩ := begun
  simp only [step?, begun] at taken
  cases row : a.ready with
  | nil => simp [row] at taken
  | cons first rest =>
    simp only [row] at taken
    cases left : first.laps with
    | succ laps =>
      simp only [left, Option.some.injEq] at taken
      exact ⟨first, rest, _, _, rfl, .inl ⟨laps, left, taken.symm⟩⟩
    | zero =>
      simp only [left, Option.some.injEq] at taken
      exact ⟨first, rest, _, _, rfl, .inr ⟨left, _, taken.symm⟩⟩

theorem session_await (a : Agenda) (name : String) (activity : Activity) :
    (a.await name activity).session = a.session := by
  rcases a.await_cases name activity with ⟨_, _, awaited⟩ | ⟨_, _, _, _, _, _, awaited⟩ <;>
    rw [awaited]

/-- Putting in place how a call has come along puts its session in place. -/
theorem session_settleCall (a : Agenda) (name : String) (piece : Session × Flow) :
    (a.settleCall name piece).session = piece.1 := by
  obtain ⟨session, flow⟩ := piece
  rcases flow with answer | activity
  · rfl
  · exact session_await _ name activity

/-- Going around the row, and being taken up, keep an agenda in order. -/
theorem Orderly.step? (orderly : a.Orderly none) (taken : a.step? = some next) :
    next.Orderly none ∧ a.session.Goes next.session := by
  obtain ⟨first, rest, alarms, ahead, row, cases⟩ := step?_cases taken
  rcases cases with ⟨laps, _, rfl⟩ | ⟨_, rested, rfl⟩
  · have listed : a.activities =
        first.activity :: (rest.map (·.activity) ++ a.waiting.map (·.activity)) := by
      simp [activities, row]
    have same : a.activities.Perm
        ((rest ++ [{ first with laps }]).map Ready.activity ++ a.waiting.map (·.activity)) := by
      rw [listed]
      simpa using List.perm_middle.symm
    exact ⟨⟨⟨orderly.minds.perm (same.filterMap _), orderly.suits⟩, orderly.unreleased⟩,
      .refl _⟩
  · have minds := orderly.minds
    rw [Option.toList_none, List.nil_append, holds_of_row row] at minds
    have leaves := Session.leaves_takeUpActivity minds rested
    refine ⟨orderly_settleCall (a := { a with ready := rest, alarms := alarms, ahead := ahead })
      orderly.suits leaves first.name, ?_⟩
    rw [session_settleCall]
    exact leaves.goes

/-- Alarms that go off keep an agenda in order, and leave its session as it is. -/
theorem Orderly.foldl_ring (orderly : a.Orderly none) (due : List Alarm) :
    (due.foldl Agenda.ring a).Orderly none ∧ (due.foldl Agenda.ring a).session = a.session := by
  induction due generalizing a with
  | nil => exact ⟨orderly, rfl⟩
  | cons alarm due inductionHypothesis => exact inductionHypothesis (orderly.ring alarm)

/-- Whatever happens keeps an agenda in order, and all that happens to the engine is a history. -/
theorem Orderly.changes (orderly : a.Orderly none) (changes : a.Changes next) :
    next.Orderly none ∧ a.session.Goes next.session := by
  have acted : ∀ {session : Session}, a.session.Leaves session a.holds none →
      ({ a with session } : Agenda).release.Orderly none ∧ a.session.Goes session :=
    fun leaves => ⟨Kept.release ⟨leaves.minds, orderly.suits⟩, leaves.goes⟩
  cases changes with
  | call name request =>
    have leaves := Session.leaves_begin orderly.minds request
    refine ⟨orderly_settleCall (a := { a.tidy with calls := a.calls ++ [name] }) orderly.suits
      leaves name, ?_⟩
    rw [call, session_settleCall]
    exact leaves.goes
  | act change keeps => exact acted (keeps.leaves orderly.minds)
  | stop => exact acted (a.session.spares_stop.leaves orderly.minds)
  | step taken => exact orderly.step? taken
  | passTo moment =>
    have ticked : ∀ alarms, ({ a.setClock moment with alarms } : Agenda).Orderly none :=
      fun _ => ⟨⟨orderly.minds, orderly.suits⟩, orderly.unreleased⟩
    obtain ⟨rung, same⟩ := (ticked (a.alarms.takeDue moment a.alarms.length).2).foldl_ring
      (a.alarms.takeDue moment a.alarms.length).1
    exact ⟨rung, same ▸ .refl _⟩
  | setClock moment => exact ⟨⟨⟨orderly.minds, orderly.suits⟩, orderly.unreleased⟩, .refl _⟩
  | clear =>
    exact ⟨⟨⟨orderly.minds, orderly.suits⟩, orderly.unreleased⟩, Session.Keeps.goes ⟨rfl, rfl⟩⟩

/-- What an agenda in order comes to is in order, and all that happens to the engine meanwhile is a
history. -/
theorem Orderly.comes (orderly : a.Orderly none) (comes : a.Comes next) :
    next.Orderly none ∧ a.session.Goes next.session := by
  induction comes with
  | refl => exact ⟨orderly, .refl _⟩
  | tail _ changes inductionHypothesis =>
    obtain ⟨orderlyNext, goes⟩ := inductionHypothesis.1.changes changes
    exact ⟨orderlyNext, inductionHypothesis.2.trans goes⟩

/-- Every agenda that a session can come to is in order. -/
theorem Reached.orderly (reached : a.Reached) : a.Orderly none := by
  obtain ⟨session, fresh, comes⟩ := reached
  have start : ({ session } : Agenda).Orderly none := by
    refine ⟨⟨⟨?_, ?_, ?_, ?_⟩, ?_⟩, ?_⟩
    · exact ⟨[], rfl, fresh.symm⟩
    · simp [holds, activities]
    · simp [holds, activities]
    · intro ref r known
      rw [show ({ session } : Agenda).session.engine = {} from fresh] at known
      cases known
    · simp
    · simp
  exact (start.comes comes).1

end Agenda
end TurnScript
