import TurnScript.Proofs.Engine.Earliest
import TurnScript.Proofs.Play.Outcomes
import TurnScript.Proofs.Session.Agenda
import TurnScript.Proofs.Session.Performance

/-!
# Verdicts on what the standard rules have done

Four conditions come in two pairs, each of which asks for the two answers to one question. The
members of a pair exclude each other, and one of them holds, once the outcome that they ask about
has an answer at all. Nothing in a run makes sure that it has one: whoever plays an action may come
to any outcome. The standard rules come to proper ones only. So a session whose actions they play
has nothing but proper outcomes in the ledgers of its runs, whatever happens on its agenda, and a
run that is held in a use is held in one that comes to a proper outcome.
-/

namespace TurnScript

/-- A ledger of well-formed outcomes. -/
def Ledger.IsProper (ledger : Ledger) : Prop :=
  ∀ entry ∈ ledger, entry.2.IsProper

/-- What a run is held in comes to a well-formed outcome, if it is the use of an action. -/
def Hold.IsProper : Hold → Prop
  | .pause => True
  | .call use => ∀ (next : Session) (rested unpaced : Bool),
      Session.Ends Played.IsProper (next.resume rested unpaced use)

/-- A response is to be told a run if it is an outcome that is well formed, or none. -/
def Response.IsProper : Response → Prop
  | .reply told => ∀ outcome, told = .outcome outcome → outcome.IsProper
  | .hold held => held.IsProper
  | .nothing => True

theorem Ledger.IsProper.record {ledger : Ledger} {outcome : Outcome} (proper : ledger.IsProper)
    (fits : outcome.IsProper) (id : String) : (ledger.record id outcome).IsProper := by
  intro entry member
  rcases Ordered.mem_put member with rfl | before
  · exact fits
  · exact proper entry before

/-- A ledger that tells about a matter at all has a first outcome about it. -/
theorem Ledger.first?_of_told {ledger : Ledger} {matter : Matter}
    (told : ∃ entry ∈ ledger, matter.isToldBy entry.2 = true) :
    ∃ entry ∈ ledger, matter.isToldBy entry.2 = true ∧ ledger.first? matter = some entry.2 := by
  obtain ⟨entry, found⟩ := Option.isSome_iff_exists.mp (List.find?_isSome.mpr told)
  refine ⟨entry, List.mem_of_find?_eq_some found, ?_, ?_⟩
  · exact List.find?_some (p := fun entry : String × Outcome => matter.isToldBy entry.2) found
  · rw [Ledger.first?, found, Option.map_some]

/-- Of two questions about one matter, exactly one is answered yes if each outcome that tells about
the matter is a yes to exactly one of them. -/
theorem Condition.verdict_eq_not {one other : Condition} {matter : Matter}
    {isYes isNo : Outcome → Bool} {ledger : Ledger}
    (asks : one.kind.question? = some (matter, isYes))
    (denies : other.kind.question? = some (matter, isNo))
    (told : ∃ entry ∈ ledger, matter.isToldBy entry.2 = true)
    (opposite : ∀ entry ∈ ledger, matter.isToldBy entry.2 = true → isYes entry.2 = !isNo entry.2)
    (token : Token) (range : RangeAnswer) :
    one.verdict token ledger range = !other.verdict token ledger range := by
  obtain ⟨entry, member, tells, first⟩ := Ledger.first?_of_told told
  rw [one.verdict_eq_first? asks, other.verdict_eq_first? denies, first, Option.all_some,
    Option.all_some]
  exact opposite entry member tells

/-- An attack has hit or else missed. -/
theorem Outcome.IsProper.hit_eq_not {outcome : Outcome} (proper : outcome.IsProper)
    (tells : Matter.attack.isToldBy outcome = true) :
    (outcome.hit == some true) = !(outcome.hit == some false) := by
  obtain ⟨_, hit, _, known, _⟩ := proper.attack (beq_iff_eq.mp tells)
  rw [known]
  cases hit <;> rfl

/-- A saving throw has succeeded or else failed. -/
theorem Outcome.saved_eq_not {outcome : Outcome} (tells : Matter.save.isToldBy outcome = true) :
    (outcome.saved == some true) = !(outcome.saved == some false) := by
  obtain ⟨saved, known⟩ := Option.isSome_iff_exists.mp tells
  rw [known]
  cases saved <;> rfl

/-- A run that is told no outcome, or one that is well formed, keeps its ledger well formed. -/
theorem Run.isProper_tell {r : Run} {reply : Reply} (proper : r.ledger.IsProper)
    (fits : ∀ outcome, reply = .outcome outcome → outcome.IsProper) (active : Bool) :
    (r.tell active reply).ledger.IsProper := by
  rw [(r.logs_tell active reply).ledger]
  cases reply with
  | outcome outcome =>
    cases playing : r.played? with
    | none => simpa [playsIn, play?, playing, Ledger.recordAll] using proper
    | some action =>
      simpa [playsIn, play?, playing, Ledger.recordAll] using
        proper.record (fits outcome rfl) action.id
  | verdict | noted | raised | paused => exact proper

namespace Session

/-- A session whose actions the standard rules play, with nothing but well-formed outcomes in the
ledgers of its runs. -/
structure IsFair (s : Session) : Prop where
  builtIn : s.IsBuiltIn
  ledgers : ∀ ref r, s.engine.run? ref = some r → r.ledger.IsProper

/-- A session that is fair, and in which one run more is held in something fair, if any. -/
structure StaysFair (s : Session) (held : Option (RunRef × Hold)) : Prop where
  fair : s.IsFair
  proper : ∀ ref hold, held = some (ref, hold) → hold.IsProper

variable {s next : Session} {ref : RunRef}

theorem IsBuiltIn.of_host (builtIn : s.IsBuiltIn) (same : next.host = s.host) :
    next.IsBuiltIn := by
  obtain ⟨⟨attack, item, workflow⟩, movement⟩ := builtIn
  rw [← same] at attack item workflow movement
  exact ⟨⟨attack, item, workflow⟩, movement⟩

theorem IsFair.nothing (fair : s.IsFair) : s.StaysFair none :=
  ⟨fair, fun _ _ isHeld => by cases isHeld⟩

/-- A stop leaves all ledgers. -/
theorem IsFair.spares (fair : s.IsFair) (spares : s.Spares next) : next.IsFair := by
  refine ⟨fair.builtIn.of_host spares.host, ?_⟩
  intro ref r known
  rcases spares.engine with same | stopped
  · rw [same] at known
    exact fair.ledgers ref r known
  · rw [stopped, show s.engine.stop = s.engine.effect .stopped from rfl,
      Engine.run?_stopped] at known
    split at known
    · obtain ⟨before, knownBefore, rfl⟩ := Option.map_eq_some_iff.mp known
      exact fair.ledgers ref before knownBefore
    · exact fair.ledgers ref r known

theorem IsFair.keeps (fair : s.IsFair) (keeps : s.Keeps next) : next.IsFair :=
  fair.spares keeps.spares

/-! ## Answers to a run -/

theorem IsFair.tell {reply : Reply} (fair : s.IsFair)
    (fits : ∀ outcome, reply = .outcome outcome → outcome.IsProper) (ref : RunRef) :
    (s.tell ref reply).IsFair := by
  refine ⟨fair.builtIn.of_host rfl, ?_⟩
  intro other r known
  simp only [Session.tell, Engine.tell, Engine.run?_release, Engine.run?_change] at known
  split at known
  · obtain ⟨before, knownBefore, rfl⟩ := Option.map_eq_some_iff.mp known
    exact Run.isProper_tell (fair.ledgers other before knownBefore) fits _
  · exact fair.ledgers other r known

/-- A use that comes to a proper end is told as a proper outcome, or held. -/
theorem Ends.used {use : Session × Progress} (ends : Ends Played.IsProper use) (name : String) :
    (used name use).2.IsProper := by
  cases ends with
  | done proper =>
    rintro outcome ⟨⟩
    exact proper name
  | held later => exact later

theorem isProper_noticed (taken : Session × Option Mishap) : (noticed taken).2.IsProper := by
  obtain ⟨s, mishap⟩ := taken
  cases mishap with
  | none => rintro outcome ⟨⟩
  | some mishap => rintro outcome ⟨⟩

/-- Whatever a run waits for, the response is proper. -/
theorem isProper_respond (builtIn : s.IsBuiltIn) (ref : RunRef) (subject : TokenRef) (run : Run) :
    (s.respond ref subject run).2.IsProper := by
  unfold respond
  cases run.stage with
  | asking action rest => rintro outcome ⟨⟩
  | skipping action rest | reporting | failing mishap => exact isProper_noticed _
  | acting action rest | branching action rest =>
    exact (ends_dispatch builtIn subject action run.unpaced).used action.name
  | pacing action outcome rest | settling rest =>
    dsimp only
    split
    · rintro outcome ⟨⟩
    · split
      · rintro outcome ⟨⟩
      · trivial
  | ended how => trivial

theorem isProper_respondHeld {hold : Hold} (proper : hold.IsProper) (s : Session) (ref : RunRef)
    (rested : Bool) : (s.respondHeld ref rested hold).2.IsProper := by
  cases hold with
  | pause => rintro outcome ⟨⟩
  | call call => exact (proper s rested (s.unpaced ref)).used _

/-- What is told a run leaves the session fair, and what is not is held. -/
theorem IsFair.deliver {response : Session × Response} (fair : response.1.IsFair)
    (proper : response.2.IsProper) (ref : RunRef) :
    (deliver ref response).1.IsFair ∧
      ∀ hold, (deliver ref response).2 = some hold → hold.IsProper := by
  obtain ⟨s, response⟩ := response
  cases response with
  | reply reply => exact ⟨fair.tell proper ref, fun hold isHeld => by cases isHeld⟩
  | hold hold =>
    refine ⟨fair, ?_⟩
    rintro other ⟨⟩
    exact proper
  | nothing => exact ⟨fair, fun hold isHeld => by cases isHeld⟩

/-! ## Following a run -/

theorem IsFair.drive (fair : s.IsFair) (ref : RunRef) (rank : Nat) :
    (drive ref rank s).1.StaysFair ((Session.drive ref rank s).2.hold? ref) := by
  induction rank generalizing s with
  | zero => exact fair.nothing
  | succ rank inductionHypothesis =>
    cases found : s.engine.entries[ref]? with
    | none =>
      simp only [Session.drive, found]
      exact fair.nothing
    | some entry =>
      obtain ⟨subject, run⟩ := entry
      have answered := (fair.spares (s.spares_respond ref subject run)).deliver
        (isProper_respond fair.builtIn ref subject run) ref
      simp only [Session.drive, found]
      rw [← answer_eq] at answered
      cases answer : s.answer ref subject run with
      | mk next hold =>
        rw [answer] at answered
        cases hold with
        | none => exact inductionHypothesis answered.1
        | some hold =>
          refine ⟨answered.1, ?_⟩
          rintro other otherHold ⟨⟩
          exact answered.2 hold rfl

theorem IsFair.follow (fair : s.IsFair) (ref : RunRef) :
    (s.follow ref).1.StaysFair ((s.follow ref).2.hold? ref) :=
  fair.drive ref _

theorem IsFair.takeUp {hold : Hold} (fair : s.IsFair) (proper : hold.IsProper) (ref : RunRef)
    (rested : Bool) : (s.takeUp ref rested hold).1.StaysFair
      ((s.takeUp ref rested hold).2.hold? ref) := by
  have delivered := (fair.spares (s.spares_respondHeld ref rested hold)).deliver
    (isProper_respondHeld proper s ref rested) ref
  rw [takeUp_eq]
  cases told : Session.deliver ref (s.respondHeld ref rested hold) with
  | mk next hold =>
    rw [told] at delivered
    cases hold with
    | none => exact delivered.1.follow ref
    | some hold =>
      refine ⟨delivered.1, ?_⟩
      rintro other otherHold ⟨⟩
      exact delivered.2 hold rfl

/-- A new run has nothing in its ledger. -/
theorem IsFair.submit {subject : TokenRef} {script : List Action} (fair : s.IsFair)
    (submitted : s.submit subject script = some (ref, next)) : next.IsFair := by
  obtain ⟨free, _, arrived, host⟩ := engine_submit submitted
  refine ⟨fair.builtIn.of_host host, ?_⟩
  intro other r known
  rw [arrived, Engine.run?_arrived s.engine subject script other free] at known
  split at known
  · obtain rfl := Option.some.inj known
    rw [(Run.begin_untouched script).2.1]
    intro entry member
    cases member
  · exact fair.ledgers other r known

/-! ## Turns and errands -/

theorem StaysFair.hearRun {standing : Session × Standing}
    (stays : standing.1.StaysFair (standing.2.hold? ref)) :
    (hearRun ref standing).1.StaysFair (Session.hearRun ref standing).2.hold? := by
  obtain ⟨next, standing⟩ := standing
  rcases standing with (mishap | summary) | hold
  · exact stays
  · exact (stays.fair.keeps (next.keeps_emit _)).nothing
  · exact stays

theorem IsFair.hearTurn (fair : s.IsFair) (token : TokenRef) :
    (s.hearTurn token).1.StaysFair (s.hearTurn token).2.hold? := by
  have loaded := fair.spares (s.spares_scriptOfTurn token true)
  unfold Session.hearTurn
  split
  · next next failure found =>
    rw [found] at loaded
    exact loaded.nothing
  · next next found =>
    rw [found] at loaded
    exact (loaded.keeps (next.keeps_emit _)).nothing
  · next next script found =>
    rw [found] at loaded
    split
    · exact (loaded.keeps (next.keeps_emit _)).nothing
    · next run begun submitted => exact ((loaded.submit submitted).follow run).hearRun

theorem IsFair.tellListener (fair : s.IsFair) (round : Nat) (token : TokenRef)
    (listener : Listener) : (s.tellListener round token listener).1.StaysFair
      (s.tellListener round token listener).2.hold? := by
  have told := fair.keeps (s.keeps_emit (.turnBegan round (s.token token).id))
  unfold Session.tellListener
  dsimp only
  split
  · exact told.nothing
  · split
    · exact told.hearTurn token
    · exact told.nothing

theorem IsFair.tellListeners (fair : s.IsFair) (combat : CombatRef) (token : TokenRef)
    (listeners : List Listener) : (tellListeners combat token s listeners).1.StaysFair
      (Session.tellListeners combat token s listeners).2.hold? := by
  induction listeners generalizing s with
  | nil => exact fair.nothing
  | cons listener listeners inductionHypothesis =>
    have told := fair.tellListener (s.combat combat).round token listener
    unfold Session.tellListeners
    split
    · next next heard =>
      rw [heard] at told
      exact inductionHypothesis told.fair
    · next next failure heard =>
      rw [heard] at told
      exact told
    · next next run hold heard =>
      rw [heard] at told
      exact told

theorem IsFair.attend (fair : s.IsFair) (combat : CombatRef)
    (step : Combat.Step Combat.Stage) :
    (s.attend combat step).1.StaysFair (s.attend combat step).2.hold? := by
  have placed := fair.keeps (s.keeps_withCombat combat step.combat step.table)
  unfold Session.attend
  dsimp only
  split
  · exact placed.nothing
  · exact placed.tellListeners _ _ _
  · exact placed.nothing
  · exact placed.nothing
  · exact placed.nothing

/-- An errand is taken up, and with it the run that it holds. -/
theorem IsFair.takeUpErrand {hold : ErrandHold} (fair : s.IsFair)
    (proper : ∀ ref held, hold.hold? = some (ref, held) → held.IsProper) (combat : CombatRef)
    (errand : Errand) (rested : Bool) :
    (s.takeUpErrand combat errand rested hold).1.StaysFair
      (s.takeUpErrand combat errand rested hold).2.hold? := by
  cases hold with
  | resting ahead rolled => exact fair.attend combat _
  | adrift => exact fair.nothing
  | listening token listeners run hold =>
    have heard := (fair.takeUp (proper run hold rfl) run rested).hearRun
    simp only [Session.takeUpErrand]
    split
    · next next taken =>
      rw [taken] at heard
      exact heard.fair.tellListeners _ _ _
    · next next failure taken =>
      rw [taken] at heard
      exact heard
    · next next run hold taken =>
      rw [taken] at heard
      exact heard

/-! ## Activities -/

/-- A use that is none of a run stays outside all ledgers. -/
theorem IsFair.flowOfUse {use : Session × Progress} {unpaced : Bool} (fair : s.IsFair)
    (uses : s.Uses unpaced use) (dispatched : Option String) :
    (flowOfUse dispatched use).1.StaysFair (Session.flowOfUse dispatched use).2.hold? := by
  have left := fair.spares uses.spares
  rw [← flowOfUse_session dispatched use] at left
  obtain ⟨next, result | call⟩ := use
  · cases dispatched <;> cases result <;> exact left.nothing
  · exact left.nothing

theorem StaysFair.flowOfRun {standing : Session × Standing}
    (stays : standing.1.StaysFair (standing.2.hold? ref)) :
    (flowOfRun ref standing).1.StaysFair (Session.flowOfRun ref standing).2.hold? := by
  obtain ⟨next, standing⟩ := standing
  rcases standing with (failure | result) | hold <;> exact stays

theorem StaysFair.flowOfErrand {combat : CombatRef} {errand : Errand}
    {standing : Session × ErrandStanding} (stays : standing.1.StaysFair standing.2.hold?) :
    (flowOfErrand combat errand standing).1.StaysFair
      (Session.flowOfErrand combat errand standing).2.hold? := by
  obtain ⟨next, standing⟩ := standing
  rcases standing with (failure | result) | hold <;> exact stays

theorem IsFair.run (fair : s.IsFair) (subject : TokenRef) (script : List Action) :
    (s.run subject script).1.StaysFair (s.run subject script).2.hold? := by
  unfold Session.run
  split
  · exact fair.nothing
  · next ref next submitted => exact ((fair.submit submitted).follow ref).flowOfRun

theorem IsFair.turn (fair : s.IsFair) (subject : TokenRef) (isNew : Bool) :
    (s.turn subject isNew).1.StaysFair (s.turn subject isNew).2.hold? := by
  have loaded := fair.spares (s.spares_scriptOfTurn subject isNew)
  unfold Session.turn
  split
  · next next failure found =>
    rw [found] at loaded
    exact loaded.nothing
  · next next found =>
    rw [found] at loaded
    exact loaded.nothing
  · next next script found =>
    rw [found] at loaded
    exact loaded.run subject script

/-- An activity is taken up, and with it the run that it holds. -/
theorem IsFair.takeUpActivity {activity : Activity} (fair : s.IsFair)
    (proper : ∀ ref held, activity.hold? = some (ref, held) → held.IsProper) (rested : Bool) :
    (s.takeUpActivity rested activity).1.StaysFair
      (s.takeUpActivity rested activity).2.hold? := by
  cases activity with
  | use call dispatched => exact fair.flowOfUse (s.uses_resume rested false call) dispatched
  | run ref hold => exact (fair.takeUp (proper ref hold rfl) ref rested).flowOfRun
  | errand combat errand hold =>
    exact (fair.takeUpErrand proper combat errand rested).flowOfErrand

theorem IsFair.playAlone {π : Type} {payload : Record.Checked π} {play : π → Session × Progress}
    (fair : s.IsFair) (plays : ∀ payload, s.Uses false (play payload)) :
    (s.playAlone payload play).1.StaysFair (s.playAlone payload play).2.hold? := by
  unfold Session.playAlone
  split
  · exact fair.flowOfUse (plays _) none
  · exact fair.nothing

/-- Whatever a session is called for, it stays fair. -/
theorem IsFair.begin (fair : s.IsFair) (request : Request) :
    (request.begin s).1.StaysFair (request.begin s).2.hold? := by
  cases request with
  | run subject script => exact fair.run subject script
  | turn subject isNew => exact fair.turn subject isNew
  | dispatch subject action =>
    exact fair.flowOfUse (s.uses_dispatch subject action false) (some action.name)
  | move subject payload => exact fair.playAlone fun _ => s.uses_resolved _
  | attack subject payload => exact fair.playAlone (s.uses_playAttack subject)
  | use subject payload => exact fair.playAlone (s.uses_playItem subject)
  | roll combat => exact (fair.attend combat _).flowOfErrand
  | start combat => exact (fair.attend combat _).flowOfErrand
  | next combat => exact (fair.attend combat _).flowOfErrand
  | join combat token => exact (fair.attend combat _).flowOfErrand
  | runForNobody =>
    have held : s.Keeps (Request.runForNobody.begin s).1 := ⟨rfl, rfl⟩
    exact (fair.keeps held).nothing
  | turnForNobody isNew => cases isNew <;> exact fair.nothing
  | dispatchForNobody action =>
    exact fair.flowOfUse (uses_dispatchBy (s.uses_playForNobody _ _) (s.uses_playForNobody _ _)
      (s.uses_playForNobody _ _) : s.Uses false _) (some action.name)
  | moveForNobody payload => exact fair.playAlone fun _ => s.uses_resolved _
  | attackForNobody payload => exact fair.playAlone fun _ => s.uses_resolved _
  | useForNobody payload => exact fair.playAlone fun _ => s.uses_resolved _

end Session

/-! ## Agendas -/

namespace Agenda

variable {a next : Agenda}

/-- An agenda with a fair session, whose runs are held in nothing but fair things. -/
structure IsFair (a : Agenda) : Prop where
  session : a.session.IsFair
  proper : ∀ activity ∈ a.activities, ∀ ref hold, activity.hold? = some (ref, hold) →
    hold.IsProper

theorem IsFair.release (fair : a.IsFair) : a.release.IsFair where
  session := fair.session
  proper activity member := fair.proper activity (a.activities_release.mem_iff.mpr member)

theorem IsFair.ring (fair : a.IsFair) (alarm : Alarm) : (a.ring alarm).IsFair where
  session := fair.session
  proper activity member := fair.proper activity ((a.activities_ring alarm).mem_iff.mpr member)

theorem IsFair.foldl_ring (fair : a.IsFair) (due : List Alarm) :
    (due.foldl Agenda.ring a).IsFair := by
  induction due generalizing a with
  | nil => exact fair
  | cons alarm due inductionHypothesis => exact inductionHypothesis (fair.ring alarm)

theorem IsFair.await {activity : Activity} (fair : a.IsFair)
    (proper : ∀ ref hold, activity.hold? = some (ref, hold) → hold.IsProper) (name : String) :
    (a.await name activity).IsFair := by
  refine ⟨(a.session_await name activity).symm ▸ fair.session, ?_⟩
  have listed : ∀ other ∈ (a.await name activity).activities,
      other = activity ∨ other ∈ a.activities := by
    intro other member
    rcases a.await_cases name activity with
      ⟨entry, rfl, awaited⟩ | ⟨entry, alarms, alarmsSet, rfl, _, _, awaited⟩
    · rw [awaited] at member
      simp only [activities, List.map_append, List.map_cons, List.map_nil, List.mem_append,
        List.mem_singleton] at member ⊢
      tauto
    · rw [awaited] at member
      simp only [activities, List.map_append, List.map_cons, List.map_nil, List.mem_append,
        List.mem_singleton] at member ⊢
      tauto
  intro other member
  rcases listed other member with rfl | before
  · exact proper
  · exact fair.proper other before

/-- How a call has come along is put in place. -/
theorem fair_settleCall {piece : Session × Flow}
    (proper : ∀ activity ∈ a.activities, ∀ ref hold, activity.hold? = some (ref, hold) →
      hold.IsProper)
    (stays : piece.1.StaysFair piece.2.hold?) (name : String) :
    (a.settleCall name piece).IsFair := by
  obtain ⟨session, flow⟩ := piece
  have placed : ({ a with session } : Agenda).release.IsFair := IsFair.release ⟨stays.fair, proper⟩
  rcases flow with answer | activity
  · exact ⟨placed.session, placed.proper⟩
  · exact placed.await stays.proper name

theorem IsFair.step? (fair : a.IsFair) (taken : a.step? = some next) : next.IsFair := by
  obtain ⟨first, rest, alarms, ahead, row, cases⟩ := step?_cases taken
  have listed : a.activities =
      first.activity :: (rest.map (·.activity) ++ a.waiting.map (·.activity)) := by
    simp [activities, row]
  have proper := fair.proper
  rw [listed] at proper
  obtain ⟨properFirst, properRest⟩ := List.forall_mem_cons.mp proper
  rcases cases with ⟨laps, _, rfl⟩ | ⟨_, rested, rfl⟩
  · refine ⟨fair.session, ?_⟩
    intro activity member
    simp only [activities, List.map_append, List.map_cons, List.map_nil, List.append_assoc,
      List.singleton_append] at member
    exact proper activity (List.perm_middle.mem_iff.mp member)
  · exact fair_settleCall (a := { a with ready := rest, alarms := alarms, ahead := ahead })
      properRest (fair.session.takeUpActivity properFirst rested) first.name

/-- Whatever happens on an agenda, it stays fair. -/
theorem IsFair.changes (fair : a.IsFair) (changes : a.Changes next) : next.IsFair := by
  have acted : ∀ {session : Session}, session.IsFair →
      ({ a with session } : Agenda).release.IsFair :=
    fun fairSession => IsFair.release ⟨fairSession, fair.proper⟩
  cases changes with
  | call name request =>
    exact fair_settleCall (a := { a.tidy with calls := a.calls ++ [name] }) fair.proper
      (fair.session.begin request) name
  | act change keeps => exact acted (fair.session.keeps keeps)
  | stop => exact acted (fair.session.spares a.session.spares_stop)
  | step taken => exact fair.step? taken
  | passTo moment =>
    have ticked : ∀ alarms, ({ a.setClock moment with alarms } : Agenda).IsFair :=
      fun _ => ⟨fair.session, fair.proper⟩
    exact (ticked (a.alarms.takeDue moment a.alarms.length).2).foldl_ring
      (a.alarms.takeDue moment a.alarms.length).1
  | setClock moment => exact ⟨fair.session, fair.proper⟩
  | clear => exact ⟨fair.session.keeps ⟨rfl, rfl⟩, fair.proper⟩

/-- A session that the standard rules play is fair whatever happens on its agenda. -/
theorem fair_of_comes {session : Session} (fresh : session.engine = {})
    (builtIn : session.IsBuiltIn) (comes : Comes { session } a) : a.IsFair := by
  have start : ({ session } : Agenda).IsFair := by
    refine ⟨⟨builtIn, ?_⟩, by simp [activities]⟩
    intro ref r known
    rw [fresh] at known
    cases known
  induction comes with
  | refl => exact start
  | tail _ changes inductionHypothesis => exact inductionHypothesis.changes changes

/-- With the standard rules, whatever they are asked to play, and on whatever table, a dispatch
comes to an outcome that is well formed. So, whatever has happened on an agenda, as soon as a run
has an attack in its ledger, exactly one of the two conditions about its hit holds, and as soon as
it has a saving throw there, exactly one of the two about its success. -/
theorem outcomes_decide :
    (∀ (s : Session) (subject : TokenRef) (action : Action) (unpaced : Bool), s.IsBuiltIn →
      Session.Ends Played.IsProper (s.dispatch subject action unpaced)) ∧
    (∀ (s : Session) (action : Action), s.IsBuiltIn →
      ∃ outcome, (s.dispatchForNobody action).2 = .over (.outcome outcome) ∧ outcome.IsProper) ∧
    ∀ (session : Session) (a : Agenda), session.engine = {} → session.IsBuiltIn →
      Comes { session } a → ∀ (ref : RunRef) (r : Run), a.session.engine.run? ref = some r →
        ∀ (token : Token) (range : RangeAnswer) (one other : Condition),
          (one.kind = .attackHit → other.kind = .attackMiss →
            (∃ entry ∈ r.ledger, entry.2.kind = .attack) →
              one.verdict token r.ledger range = !other.verdict token r.ledger range) ∧
          (one.kind = .saveSuccess → other.kind = .saveFailure →
            (∃ entry ∈ r.ledger, entry.2.saved.isSome = true) →
              one.verdict token r.ledger range = !other.verdict token r.ledger range) := by
  refine ⟨?_, ?_, ?_⟩
  · intro s subject action unpaced builtIn
    exact Session.ends_dispatch builtIn subject action unpaced
  · intro s action builtIn
    exact Session.exists_dispatchForNobody builtIn action
  intro session a fresh builtIn comes ref r known token range one other
  have proper := (fair_of_comes fresh builtIn comes).session.ledgers ref r known
  constructor
  · rintro hits misses ⟨entry, member, isAttack⟩
    have asks := congrArg ConditionKind.question? hits
    have denies := congrArg ConditionKind.question? misses
    exact Condition.verdict_eq_not asks denies ⟨entry, member, beq_iff_eq.mpr isAttack⟩
      (fun entry member tells => (proper entry member).hit_eq_not tells) token range
  · rintro succeeds fails ⟨entry, member, isSave⟩
    have asks := congrArg ConditionKind.question? succeeds
    have denies := congrArg ConditionKind.question? fails
    exact Condition.verdict_eq_not asks denies ⟨entry, member, isSave⟩
      (fun _ _ tells => Outcome.saved_eq_not tells) token range

/-- An item that spares whoever makes the saving throw. -/
def torch : Item := { id := "torch", name := "Torch", saveDc := some 12 }

/-- A hero beside an orc, and one roll of a die. -/
def campfire : Session where
  table :=
    { board :=
        { roster :=
            [{ id := "hero", name := "hero", position := ⟨0, 0⟩, disposition := .friendly,
               hp := 10, maxHp := 10 },
             { id := "orc", name := "orc", position := ⟨1, 0⟩, disposition := .hostile,
               hp := 10, maxHp := 10 }]
          scene := { nodes := [("hero", .token 0), ("orc", .token 1), ("torch", .item torch)] } }
      dice := { source := .listed [15] } }

/-- The hero goes for the orc with the torch, and pauses. -/
def burning : Agenda :=
  ({ session := campfire } : Agenda).call "turn" (Request.run 0
    [{ id := "burn", kind := .spell,
       data := [("itemUuid", .str "torch"), ("targetId", .str "orc")] }]).begin

/-- The orc has saved, so the hero has missed. -/
theorem outcomes_decide_burning :
    campfire.engine = {} ∧ campfire.IsBuiltIn ∧ Comes { session := campfire } burning ∧
    ∃ r, burning.session.engine.run? 0 = some r ∧
      (∃ entry ∈ r.ledger, entry.2.kind = .attack) ∧
      (∃ entry ∈ r.ledger, entry.2.saved.isSome = true) ∧
      let verdict := fun kind =>
        ({ kind } : Condition).verdict (burning.session.token 0) r.ledger .noChecker
      verdict .attackMiss = true ∧ verdict .attackHit = false ∧
      verdict .saveSuccess = true ∧ verdict .saveFailure = false := by
  have builtIn : campfire.IsBuiltIn := ⟨⟨by decide, by decide, rfl⟩, by decide⟩
  have comes : Comes { session := campfire } burning := .single (.call "turn" _)
  have ran : (burning.session.engine.run? 0).isSome = true := by decide +kernel
  obtain ⟨r, known⟩ := Option.isSome_iff_exists.mp ran
  have recorded : (burning.session.engine.run? 0).map (fun r =>
      (r.ledger.any fun entry => entry.2.kind == .attack) &&
        r.ledger.any fun entry => entry.2.saved.isSome) = some true := by decide +kernel
  have told : (burning.session.engine.run? 0).map (fun r =>
      let verdict := fun kind =>
        ({ kind } : Condition).verdict (burning.session.token 0) r.ledger .noChecker
      (verdict .attackMiss, verdict .saveSuccess)) = some (true, true) := by decide +kernel
  rw [known, Option.map_some, Option.some.injEq, Bool.and_eq_true, List.any_eq_true,
    List.any_eq_true] at recorded
  rw [known] at told
  obtain ⟨missed, saved⟩ := Prod.mk.inj (Option.some.inj told)
  obtain ⟨⟨entry, member, isAttack⟩, isSave⟩ := recorded
  have attacked : ∃ entry ∈ r.ledger, entry.2.kind = .attack :=
    ⟨entry, member, beq_iff_eq.mp isAttack⟩
  have decided := outcomes_decide.2.2 campfire burning rfl builtIn comes 0 r known
    (burning.session.token 0) .noChecker
  refine ⟨rfl, builtIn, comes, r, known, attacked, isSave, ?_⟩
  intro verdict
  have hit : verdict .attackHit = !verdict .attackMiss := (decided _ _).1 rfl rfl attacked
  have saves : verdict .saveSuccess = !verdict .saveFailure := (decided _ _).2 rfl rfl isSave
  rw [show verdict .attackMiss = true from missed] at hit ⊢
  rw [show verdict .saveSuccess = true from saved] at saves ⊢
  exact ⟨rfl, hit, rfl, by simpa using saves⟩

end Agenda

end TurnScript
