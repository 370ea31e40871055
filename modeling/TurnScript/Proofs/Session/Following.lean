import TurnScript.Proofs.Session.Holding
import TurnScript.Proofs.Session.Use

/-!
# What the calls of a session do to its runs

A session answers a loose run until it is over or held. All that happens to the engine meanwhile is
a history of it: the run is told what it waits for, and whoever plays its actions or takes its
notices may stop the engine. So what holds of every history holds of the engine of a session,
and each call leaves behind at most one run more that is held, for which it has a reason.
-/

namespace TurnScript

/-- The run that is held after a run has been followed. -/
def Standing.hold? (ref : RunRef) : Standing → Option (RunRef × Hold)
  | .over _ => none
  | .held hold => some (ref, hold)

/-- The run that is held after a listener has been told. -/
def Hearing.hold? : Hearing → Option (RunRef × Hold)
  | held run hold => some (run, hold)
  | done | failed _ => none

/-- The run that an errand holds. -/
def ErrandHold.hold? : ErrandHold → Option (RunRef × Hold)
  | listening _ _ run hold => some (run, hold)
  | resting .. | adrift => none

/-- The run that is held after a piece of an errand. -/
def ErrandStanding.hold? : ErrandStanding → Option (RunRef × Hold)
  | .over _ => none
  | .held hold => hold.hold?

/-- The run that an activity holds. -/
def Activity.hold? : Activity → Option (RunRef × Hold)
  | use .. => none
  | run ref hold => some (ref, hold)
  | errand _ _ hold => hold.hold?

/-- The run that is held after a piece of an activity. -/
def Flow.hold? : Flow → Option (RunRef × Hold)
  | .over _ => none
  | .held activity => activity.hold?

namespace Session

/-- A session that another one has come to. -/
structure Goes (s next : Session) : Prop where
  engine : s.engine.Comes next.engine
  host : next.host = s.host

/-- What a run is held in has not come to its end. -/
def Wants (s : Session) (ref : RunRef) : Hold → Prop
  | .pause => s.unpaced ref = false
  | .call call => s.Lacks (s.unpaced ref) call

/-- A session has come to another one, in which one run more is held, if any. -/
structure Leaves (s next : Session) (holds : List (RunRef × Hold))
    (held : Option (RunRef × Hold)) : Prop where
  goes : s.Goes next
  minds : next.engine.Minds none (held.toList ++ holds)
  wants : ∀ ref hold, held = some (ref, hold) → next.Wants ref hold

variable {s middle next : Session} {ref : RunRef} {r : Run} {holds : List (RunRef × Hold)}
  {held : Option (RunRef × Hold)}

theorem Goes.refl (s : Session) : s.Goes s := ⟨.refl _, rfl⟩

theorem Goes.trans (first : s.Goes middle) (second : middle.Goes next) : s.Goes next :=
  ⟨first.engine.trans second.engine, second.host.trans first.host⟩

theorem Keeps.goes (keeps : s.Keeps next) : s.Goes next :=
  ⟨keeps.engine ▸ .refl _, keeps.host⟩

theorem Goes.leaves (goes : s.Goes middle) (leaves : middle.Leaves next holds held) :
    s.Leaves next holds held :=
  ⟨goes.trans leaves.goes, leaves.minds, leaves.wants⟩

/-- Where nothing is loose, nothing needs to be done. -/
theorem Keeps.leaves (keeps : s.Keeps next) (minds : s.engine.Minds none holds) :
    s.Leaves next holds none :=
  ⟨keeps.goes, keeps.engine ▸ minds, fun _ _ isHeld => by cases isHeld⟩

/-! ## Answers to a run -/

/-- An answer to the loose run: it is nearer to its end, or held. -/
structure Answers (s : Session) (ref : RunRef) (r : Run) (holds : List (RunRef × Hold))
    (answer : Session × Option Hold) : Prop where
  goes : s.Goes answer.1
  loose : answer.2 = none → answer.1.engine.Minds (some ref) holds ∧
    ∃ next, answer.1.engine.run? ref = some next ∧ next.rank < r.rank
  held : ∀ hold, answer.2 = some hold →
    answer.1.engine.Minds none ((ref, hold) :: holds) ∧ answer.1.Wants ref hold

/-- Telling a run a reply is a piece of news for it, if that is what it makes of them. -/
theorem engine_tell {news : News} {reply : Reply} (known : s.engine.run? ref = some r)
    (replied : news.reply r.ledger = reply) :
    (s.tell ref reply).engine = s.engine.effect (.told ref news) := by
  simp [tell, Engine.effect, Engine.ledger, known, replied]

/-- The loose run is told news that it waits for. -/
theorem answers_tell {news : News} {reply : Reply} (minds : s.engine.Minds (some ref) holds)
    (known : s.engine.run? ref = some r) (awaited : r.awaits news = true)
    (replied : news.reply r.ledger = reply) : s.Answers ref r holds (s.tell ref reply, none) := by
  have permitted : s.engine.permits (.told ref news) = true := by
    simp [Engine.permits, known, awaited]
  have told : (s.tell ref reply).engine = s.engine.effect (.told ref news) :=
    engine_tell known replied
  refine ⟨⟨told ▸ .of_permits _ permitted, rfl⟩, ?_, ?_⟩
  · intro _
    refine ⟨told ▸ minds.told permitted, r.hear (s.engine.isActive ref) news, ?_, ?_⟩
    · rw [told, Engine.run?_told, if_pos rfl, known]
      rfl
    · exact (Run.moves_of_awaits (s.engine.isActive ref) awaited).rank_lt
  · rintro hold ⟨⟩

/-- A stop on the way leaves the loose run where it is. -/
theorem Spares.minds (spares : s.Spares middle) (minds : s.engine.Minds (some ref) holds)
    (known : s.engine.run? ref = some r) (quiet : r.isAsking = false) :
    s.Goes middle ∧ middle.engine.Minds (some ref) holds ∧
      ∃ run, middle.engine.run? ref = some run ∧ (run = r ∨ run = r.halted) := by
  rcases spares.engine with same | stopped
  · exact ⟨⟨same ▸ .refl _, spares.host⟩, same ▸ minds, r, by rw [same, known], .inl rfl⟩
  · have calm : s.engine.isCalm = true := by
      apply minds.calm
      intro other run loose knownOther
      obtain rfl := Option.some.inj loose
      rw [known, Option.some.injEq] at knownOther
      exact knownOther ▸ quiet
    refine ⟨⟨stopped ▸ .of_permits .stopped calm, spares.host⟩, stopped ▸ minds.stop calm, ?_⟩
    rw [stopped, show s.engine.stop = s.engine.effect .stopped from rfl, Engine.run?_stopped, known]
    split
    · exact ⟨r.halted, rfl, .inr rfl⟩
    · exact ⟨r, rfl, .inl rfl⟩

/-- The loose run is told what has come of something that can have stopped the engine. -/
theorem Spares.answers {news : News} {reply : Reply} (spares : s.Spares middle)
    (minds : s.engine.Minds (some ref) holds) (known : s.engine.run? ref = some r)
    (quiet : r.isAsking = false) (awaited : r.awaits news = true)
    (replied : news.reply r.ledger = reply) :
    s.Answers ref r holds (middle.tell ref reply, none) := by
  obtain ⟨goes, mindsMiddle, run, knownMiddle, same⟩ := spares.minds minds known quiet
  have like : run.awaits news = true ∧ run.ledger = r.ledger ∧ run.rank = r.rank := by
    rcases same with rfl | rfl
    · exact ⟨awaited, rfl, rfl⟩
    · exact ⟨by cases news <;> exact awaited, rfl, rfl⟩
  have told : middle.Answers ref run holds (middle.tell ref reply, none) :=
    answers_tell mindsMiddle knownMiddle like.1 (like.2.1 ▸ replied)
  exact ⟨goes.trans told.goes, fun loose => like.2.2 ▸ told.loose loose, told.held⟩

/-- The loose run is told how its notice was taken. -/
theorem answers_notice {notified : Session × Option Mishap} (spares : s.Spares notified.1)
    (minds : s.engine.Minds (some ref) holds) (known : s.engine.run? ref = some r)
    (quiet : r.isAsking = false) (awaited : r.awaits .noted = true) :
    s.Answers ref r holds (tellNoted ref notified, none) := by
  obtain ⟨middle, mishap⟩ := notified
  cases mishap with
  | none => exact spares.answers minds known quiet awaited rfl
  | some mishap =>
    have failed : r.awaits (.failed mishap) = true := awaited
    exact spares.answers minds known quiet failed rfl

/-- A run that waits for the outcome of a dispatch is told it, or it is held in the use. -/
theorem Uses.answers {use : Session × Progress} {action : Action}
    (uses : s.Uses r.unpaced use) (minds : s.engine.Minds (some ref) holds)
    (known : s.engine.run? ref = some r) (plays : r.played? = some action) :
    s.Answers ref r holds (tellProgress ref action.name use) := by
  have quiet : r.isAsking = false := by
    cases standing : r.stage <;> simp_all [Run.played?, Run.isAsking]
  obtain ⟨middle, progress⟩ := use
  cases progress with
  | done result =>
    have awaited : r.awaits (.played action (.ofUse action.name result)) = true := by
      simp [Run.awaits, plays]
    exact uses.spares.answers minds known quiet awaited rfl
  | held call =>
    obtain ⟨keeps, lacks⟩ := uses.held call rfl
    have knownMiddle : middle.engine.run? ref = some r := by rw [keeps.engine, known]
    have fits : r.fits (.call call) = true := by simp [Run.fits, plays]
    refine ⟨keeps.goes, ?_, ?_⟩
    · rintro ⟨⟩
    · rintro hold ⟨⟩
      refine ⟨Engine.Minds.secure (keeps.engine ▸ minds) knownMiddle fits, ?_⟩
      have same : middle.unpaced ref = r.unpaced := by simp [unpaced, knownMiddle]
      change middle.Lacks (middle.unpaced ref) call
      rw [same]
      exact lacks

/-- A run that waits for the end of a pause is told that it is over, or it is held in it. -/
theorem answers_pause (minds : s.engine.Minds (some ref) holds)
    (known : s.engine.run? ref = some r) (pausing : r.fits .pause = true) :
    s.Answers ref r holds (s.pause ref) := by
  have quiet : r.isAsking = false := (Run.unfinished_of_fits pausing).2
  have rests : r.awaits .rested = true := pausing
  have overruns : r.awaits .overran = true := pausing
  unfold pause
  split
  · exact (Keeps.refl s).spares.answers minds known quiet overruns rfl
  · split
    · exact (Keeps.refl s).spares.answers minds known quiet rests rfl
    · next paced =>
      refine ⟨.refl s, ?_, ?_⟩
      · rintro ⟨⟩
      · rintro hold ⟨⟩
        exact ⟨minds.secure known pausing, by simpa [Wants] using paced⟩

theorem keeps_judge (s : Session) (subject : TokenRef) (ledger : Ledger) (action : Action) :
    s.Keeps (s.judge subject ledger action).1 ∧ ∃ range, (s.judge subject ledger action).2 =
      action.condition.verdict ((s.judge subject ledger action).1.token subject) ledger range := by
  have asked : s.Keeps (s.askRange subject action).1 := by
    unfold askRange
    split
    · exact .refl s
    · exact .refl s
    · exact s.keeps_emit _
    · exact s.keeps_emit _
  unfold judge
  dsimp only
  split
  · exact ⟨asked, _, rfl⟩
  · exact ⟨.refl s, _, rfl⟩

/-- Whatever a run waits for that is not over, it is answered. -/
theorem answers_answer (minds : s.engine.Minds (some ref) holds)
    (known : s.engine.run? ref = some r) (unfinished : r.isOver = false) (subject : TokenRef) :
    s.Answers ref r holds (s.answer ref subject r) := by
  unfold answer
  split
  case h_1 action rest standing =>
    obtain ⟨keeps, range, verdict⟩ := s.keeps_judge subject r.ledger action
    have minded : (s.judge subject r.ledger action).1.engine.Minds (some ref) holds :=
      keeps.engine ▸ minds
    have awaited : r.awaits (.judged action ((s.judge subject r.ledger action).1.token subject)
        range) = true := by simp [Run.awaits, standing]
    have told := answers_tell minded (keeps.engine ▸ known) awaited rfl
    simp only [News.reply, ← verdict] at told
    exact ⟨keeps.goes.trans told.goes, told.loose, told.held⟩
  case h_2 action rest standing =>
    exact answers_notice (s.spares_notify _ _ _) minds known (by simp [Run.isAsking, standing])
      (by simp [Run.awaits, standing])
  case h_3 action rest standing =>
    exact (s.uses_dispatch subject action r.unpaced).answers minds known
      (by simp [Run.played?, standing])
  case h_4 action rest standing =>
    exact (s.uses_dispatch subject action r.unpaced).answers minds known
      (by simp [Run.played?, standing])
  case h_5 standing => exact answers_pause minds known (by simp [Run.fits, standing])
  case h_6 standing => exact answers_pause minds known (by simp [Run.fits, standing])
  case h_7 standing =>
    exact answers_notice (s.spares_notify _ _ _) minds known (by simp [Run.isAsking, standing])
      (by simp [Run.awaits, standing])
  case h_8 mishap standing =>
    exact answers_notice ((s.keeps_remark _ _ _).spares.trans (spares_notify _ _ _ _)) minds known
      (by simp [Run.isAsking, standing]) (by simp [Run.awaits, standing])
  case h_9 standing => simp [Run.isOver, standing] at unfinished

/-! ## Following a run -/

theorem rank_eq_zero (rank : r.rank = 0) : r.isOver = true := by
  cases standing : r.stage <;> simp [Run.rank, standing] at rank
  simp [Run.isOver, standing]

/-- A run that is held instead of being told anything is left held. -/
theorem Answers.leaves {hold : Hold} (answers : s.Answers ref r holds (next, some hold)) :
    s.Leaves next holds (some (ref, hold)) := by
  obtain ⟨minded, wants⟩ := answers.held hold rfl
  refine ⟨answers.goes, minded, ?_⟩
  rintro other otherHold ⟨⟩
  exact wants

/-- Nothing is done about a run that is over. -/
theorem answer_over (finished : r.isOver = true) (subject : TokenRef) :
    s.answer ref subject r = (s, none) := by
  cases standing : r.stage <;> simp [Run.isOver, standing] at finished
  simp [answer, standing]

/-- Driven as often as its rank says, the loose run comes to be over or held. -/
theorem leaves_drive {rank : Nat} (minds : s.engine.Minds (some ref) holds)
    (known : s.engine.run? ref = some r) (enough : r.rank ≤ rank) :
    s.Leaves (drive ref rank s).1 holds ((drive ref rank s).2.hold? ref) := by
  induction rank generalizing s r with
  | zero =>
    have finished : r.isOver = true := rank_eq_zero (Nat.le_zero.mp enough)
    exact ⟨.refl s, minds.dismiss known finished, fun _ _ isHeld => by cases isHeld⟩
  | succ rank inductionHypothesis =>
    obtain ⟨subject, found⟩ := Engine.exists_entry known
    cases finished : r.isOver with
    | true =>
      have nothing : r.rank = 0 := by
        cases standing : r.stage <;> simp_all [Run.rank, Run.isOver]
      simp only [drive, found, answer_over finished subject]
      exact inductionHypothesis minds known (by simp [nothing])
    | false =>
      have answers := answers_answer minds known finished subject
      simp only [drive, found]
      cases answered : s.answer ref subject r with
      | mk next hold =>
        rw [answered] at answers
        cases hold with
        | some hold => exact answers.leaves
        | none =>
          obtain ⟨minded, later, knownLater, nearer⟩ := answers.loose rfl
          exact answers.goes.leaves (inductionHypothesis minded knownLater (by omega))

/-- The loose run is followed until it is over or held. -/
theorem leaves_follow (minds : s.engine.Minds (some ref) holds)
    (known : s.engine.run? ref = some r) :
    s.Leaves (s.follow ref).1 holds ((s.follow ref).2.hold? ref) := by
  unfold follow
  rw [known]
  exact leaves_drive minds known (Nat.le_refl _)

/-- A run that is held is taken up. -/
theorem leaves_takeUp {hold : Hold} (minds : s.engine.Minds none ((ref, hold) :: holds))
    (rested : Bool) :
    s.Leaves (s.takeUp ref rested hold).1 holds ((s.takeUp ref rested hold).2.hold? ref) := by
  obtain ⟨r, known, fits⟩ := minds.fits ref hold (List.mem_cons_self ..)
  have loose : s.engine.Minds (some ref) holds := minds.take
  cases hold with
  | pause =>
    have awaited : r.awaits .rested = true := fits
    have told := answers_tell loose known awaited rfl
    obtain ⟨minded, later, knownLater, _⟩ := told.loose rfl
    exact told.goes.leaves (leaves_follow minded knownLater)
  | call call =>
    obtain ⟨action, plays⟩ := Option.isSome_iff_exists.mp fits
    have paced : s.unpaced ref = r.unpaced := by simp [unpaced, known]
    have named : s.playedName ref = action.name := by simp [playedName, known, plays]
    have answers := (s.uses_resume rested r.unpaced call).answers loose known plays
    simp only [takeUp, paced, named]
    cases taken : tellProgress ref action.name (s.resume rested r.unpaced call) with
    | mk next hold =>
      rw [taken] at answers
      cases hold with
      | some hold => exact answers.leaves
      | none =>
        obtain ⟨minded, later, knownLater, _⟩ := answers.loose rfl
        exact answers.goes.leaves (leaves_follow minded knownLater)

/-- A script that is not dropped arrives at an engine that is free. -/
theorem engine_submit {subject : TokenRef} {script : List Action}
    (submitted : s.submit subject script = some (ref, next)) :
    s.engine.executing = false ∧ ref = s.engine.entries.length ∧
      next.engine = s.engine.effect (.arrived subject script) ∧ next.host = s.host := by
  unfold submit at submitted
  split at submitted
  · cases submitted
  · cases free : s.engine.executing with
    | true => simp [Engine.submit, free] at submitted
    | false =>
      simp only [Engine.submit, free, Bool.false_eq_true, if_false, Option.map_some,
        Option.some.injEq, Prod.mk.injEq] at submitted
      obtain ⟨rfl, rfl⟩ := submitted
      refine ⟨rfl, rfl, ?_, rfl⟩
      simp [Engine.effect, Engine.submit, free, remark, emit]

/-- A script that is not dropped has a run that is loose. -/
theorem minds_submit {subject : TokenRef} {script : List Action}
    (minds : s.engine.Minds none holds) (submitted : s.submit subject script = some (ref, next)) :
    s.Goes next ∧ next.engine.Minds (some ref) holds ∧ ∃ r, next.engine.run? ref = some r := by
  obtain ⟨free, rfl, arrived, host⟩ := engine_submit submitted
  refine ⟨⟨?_, host⟩, ?_, Run.begin script, ?_⟩
  · exact arrived ▸ .of_permits (.arrived subject script) rfl
  · exact arrived ▸ minds.arrived free subject script
  · rw [arrived]
    exact Engine.run?_begun subject script free

/-! ## Turns and errands -/

theorem Spares.leaves (spares : s.Spares middle) (minds : s.engine.Minds none holds) :
    s.Leaves middle holds none := by
  rcases spares.engine with same | stopped
  · exact Keeps.leaves ⟨same, spares.host⟩ minds
  · have calm : s.engine.isCalm = true := minds.calm fun _ _ loose => by cases loose
    exact ⟨⟨stopped ▸ .of_permits .stopped calm, spares.host⟩, stopped ▸ minds.stop calm,
      fun _ _ isHeld => by cases isHeld⟩

theorem spares_reportStore (s : Session) (subject : Token) (error : StoreError) :
    s.Spares (s.reportStore subject error).1 := by
  have told : s.Spares (s.notifyError subject error.message).1 := s.spares_notify _ _ _
  unfold reportStore
  split
  · split
    · next next notified => rw [notified] at told; exact told
    · next next mishap notified => rw [notified] at told; exact told
  · exact (Keeps.refl s).spares

theorem spares_scriptOfTurn (s : Session) (subject : TokenRef) (isNew : Bool) :
    s.Spares (s.scriptOfTurn subject isNew).1 := by
  have filed : ∀ archive, s.Keeps { s with archive } := fun archive => ⟨rfl, rfl⟩
  unfold scriptOfTurn scriptOf
  split
  · split
    · exact (filed _).spares.trans (spares_reportStore _ _ _)
    · exact (filed _).spares
    · split
      · exact (filed _).spares.trans (spares_reportStore _ _ _)
      · exact (filed _).spares
  · exact (Keeps.refl s).spares

/-- A listener has a script run. -/
theorem leaves_hearRun {standing : Session × Standing}
    (leaves : s.Leaves standing.1 holds (standing.2.hold? ref)) :
    s.Leaves (hearRun ref standing).1 holds (hearRun ref standing).2.hold? := by
  obtain ⟨next, standing⟩ := standing
  rcases standing with (mishap | summary) | hold
  · exact leaves
  · exact leaves.goes.leaves ((next.keeps_emit _).leaves leaves.minds)
  · exact leaves

theorem leaves_hearTurn (minds : s.engine.Minds none holds) (token : TokenRef) :
    s.Leaves (s.hearTurn token).1 holds (s.hearTurn token).2.hold? := by
  have loaded := (s.spares_scriptOfTurn token true).leaves minds
  unfold hearTurn
  split
  · next next failure found =>
    rw [found] at loaded
    exact loaded
  · next next found =>
    rw [found] at loaded
    exact loaded.goes.leaves ((next.keeps_emit _).leaves loaded.minds)
  · next next script found =>
    rw [found] at loaded
    split
    · exact loaded.goes.leaves ((next.keeps_emit _).leaves loaded.minds)
    · next run begun submitted =>
      obtain ⟨goes, minded, r, known⟩ := minds_submit loaded.minds submitted
      exact (loaded.goes.trans goes).leaves (leaves_hearRun (leaves_follow minded known))

theorem leaves_tellListener (minds : s.engine.Minds none holds) (round : Nat) (token : TokenRef)
    (listener : Listener) : s.Leaves (s.tellListener round token listener).1 holds
      (s.tellListener round token listener).2.hold? := by
  have told := (s.keeps_emit (.turnBegan round (s.token token).id)).leaves minds
  unfold tellListener
  dsimp only
  split
  · exact told
  · split
    · exact told.goes.leaves (leaves_hearTurn told.minds token)
    · exact told

/-- The listeners of a turn are told one after the other, until the run of one is held. -/
theorem leaves_tellListeners (minds : s.engine.Minds none holds) (combat : CombatRef)
    (token : TokenRef) (listeners : List Listener) :
    s.Leaves (tellListeners combat token s listeners).1 holds
      (tellListeners combat token s listeners).2.hold? := by
  induction listeners generalizing s with
  | nil => exact (Keeps.refl s).leaves minds
  | cons listener listeners inductionHypothesis =>
    have told := leaves_tellListener minds (s.combat combat).round token listener
    unfold tellListeners
    split
    · next next heard =>
      rw [heard] at told
      exact told.goes.leaves (inductionHypothesis told.minds)
    · next next failure heard =>
      rw [heard] at told
      exact told
    · next next run hold heard =>
      rw [heard] at told
      exact told

theorem leaves_attend (minds : s.engine.Minds none holds) (combat : CombatRef)
    (step : Combat.Step Combat.Stage) :
    s.Leaves (s.attend combat step).1 holds (s.attend combat step).2.hold? := by
  have placed := (s.keeps_withCombat combat step.combat step.table).leaves minds
  unfold attend
  dsimp only
  split
  · exact placed
  · exact placed.goes.leaves (leaves_tellListeners placed.minds _ _ _)
  · exact placed
  · exact placed
  · exact placed

/-- An errand is taken up, and with it the run that it holds. -/
theorem leaves_takeUpErrand {hold : ErrandHold}
    (minds : s.engine.Minds none (hold.hold?.toList ++ holds)) (combat : CombatRef)
    (errand : Errand) (rested : Bool) :
    s.Leaves (s.takeUpErrand combat errand rested hold).1 holds
      (s.takeUpErrand combat errand rested hold).2.hold? := by
  cases hold with
  | resting ahead rolled => exact leaves_attend minds combat _
  | adrift => exact (Keeps.refl s).leaves minds
  | listening token listeners run hold =>
    have heard := leaves_hearRun (leaves_takeUp minds rested)
    simp only [takeUpErrand]
    split
    · next next taken =>
      rw [taken] at heard
      exact heard.goes.leaves (leaves_tellListeners heard.minds _ _ _)
    · next next failure taken =>
      rw [taken] at heard
      exact heard
    · next next run hold taken =>
      rw [taken] at heard
      exact heard

/-! ## Activities -/

theorem leaves_flowOfUse {use : Session × Progress} {unpaced : Bool} (uses : s.Uses unpaced use)
    (minds : s.engine.Minds none holds) (dispatched : Option String) :
    s.Leaves (flowOfUse dispatched use).1 holds (flowOfUse dispatched use).2.hold? := by
  have left := uses.spares.leaves minds
  obtain ⟨next, progress⟩ := use
  unfold flowOfUse
  split
  · next same =>
    obtain ⟨rfl, rfl⟩ := Prod.mk.inj same
    exact left
  · next same =>
    obtain ⟨rfl, rfl⟩ := Prod.mk.inj same
    split <;> exact left

theorem leaves_flowOfRun {standing : Session × Standing}
    (leaves : s.Leaves standing.1 holds (standing.2.hold? ref)) :
    s.Leaves (flowOfRun ref standing).1 holds (flowOfRun ref standing).2.hold? := by
  obtain ⟨next, standing⟩ := standing
  rcases standing with (failure | result) | hold
  · exact leaves
  · exact leaves
  · exact leaves

theorem leaves_flowOfErrand {combat : CombatRef} {errand : Errand}
    {standing : Session × ErrandStanding} (leaves : s.Leaves standing.1 holds standing.2.hold?) :
    s.Leaves (flowOfErrand combat errand standing).1 holds
      (flowOfErrand combat errand standing).2.hold? := by
  obtain ⟨next, standing⟩ := standing
  rcases standing with (failure | result) | hold
  · exact leaves
  · exact leaves
  · exact leaves

theorem leaves_run (minds : s.engine.Minds none holds) (subject : TokenRef)
    (script : List Action) :
    s.Leaves (s.run subject script).1 holds (s.run subject script).2.hold? := by
  unfold run
  split
  · exact (Keeps.refl s).leaves minds
  · next ref next submitted =>
    obtain ⟨goes, minded, r, known⟩ := minds_submit minds submitted
    exact goes.leaves (leaves_flowOfRun (leaves_follow minded known))

theorem leaves_turn (minds : s.engine.Minds none holds) (subject : TokenRef) (isNew : Bool) :
    s.Leaves (s.turn subject isNew).1 holds (s.turn subject isNew).2.hold? := by
  have loaded := (s.spares_scriptOfTurn subject isNew).leaves minds
  unfold turn
  split
  · next next failure found =>
    rw [found] at loaded
    exact loaded
  · next next found =>
    rw [found] at loaded
    exact loaded
  · next next script found =>
    rw [found] at loaded
    exact loaded.goes.leaves (leaves_run loaded.minds subject script)

/-- An activity is taken up, and with it the run that it holds. -/
theorem leaves_takeUpActivity {activity : Activity}
    (minds : s.engine.Minds none (activity.hold?.toList ++ holds)) (rested : Bool) :
    s.Leaves (s.takeUpActivity rested activity).1 holds
      (s.takeUpActivity rested activity).2.hold? := by
  cases activity with
  | use call dispatched =>
    exact leaves_flowOfUse (s.uses_resume rested false call) minds dispatched
  | run ref hold => exact leaves_flowOfRun (leaves_takeUp minds rested)
  | errand combat errand hold =>
    exact leaves_flowOfErrand (leaves_takeUpErrand minds combat errand rested)

end Session
end TurnScript
