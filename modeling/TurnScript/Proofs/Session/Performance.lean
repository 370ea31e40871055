import TurnScript.Proofs.Session.Following

/-!
# Performances of a script

A performance of a script is one whole run of it in a session: the run is begun, answered until it
is over or held, and taken up again after each interlude in which the table changes or a gate is
opened. Every answer to a run is a response that the run is told, unless it is held. A log keeps
what the run was told and how it stood then, so everything that it asked and dispatched can be read
off, and it accounts for the ledger and the counts of the run.
-/

namespace TurnScript

/-! ## Responses -/

/-- What an answer to a run comes to before the run is told: a reply, a hold, or nothing. -/
inductive Response where
  | reply (reply : Reply)
  | hold (hold : Hold)
  | nothing

namespace Session

/-- The response to a notice. -/
def noticed : Session × Option Mishap → Session × Response
  | (s, none) => (s, .reply .noted)
  | (s, some mishap) => (s, .reply (.raised mishap))

/-- The response to the use of an action that goes by a name. -/
def used (name : String) : Session × Progress → Session × Response
  | (s, .done result) => (s, .reply (.outcome (.ofUse name result)))
  | (s, .held call) => (s, .hold (.call call))

/-- The response to what a run waits for. -/
def respond (s : Session) (ref : RunRef) (subject : TokenRef) (run : Run) : Session × Response :=
  match run.stage with
  | .asking action _ =>
    let (s, holds) := s.judge subject run.ledger action
    (s, .reply (.verdict holds))
  | .skipping action _ => noticed (s.notifySkip (s.token subject) action)
  | .acting action _ | .branching action _ =>
    used action.name (s.dispatch subject action run.unpaced)
  | .pacing .. | .settling _ =>
    (s, if isOverlong s.host.settings.pacingDelay then .reply (.raised .overlong)
      else if s.unpaced ref then .reply .paused else .hold .pause)
  | .reporting => noticed (s.notifySummary (s.token subject) run.executed)
  | .failing mishap =>
    let s := s.remark "engine" .error
      ("Error executing queue for " ++ (s.token subject).name ++ ": " ++ mishap.message)
    noticed (s.notifyError (s.token subject) mishap.message)
  | .ended _ => (s, .nothing)

/-- Tell a run a response. -/
def deliver (ref : RunRef) : Session × Response → Session × Option Hold
  | (s, .reply reply) => (s.tell ref reply, none)
  | (s, .hold hold) => (s, some hold)
  | (s, .nothing) => (s, none)

theorem tellNoted_eq (ref : RunRef) (taken : Session × Option Mishap) :
    (tellNoted ref taken, none) = deliver ref (noticed taken) := by
  rcases taken with ⟨s, none | mishap⟩ <;> rfl

theorem tellProgress_eq (ref : RunRef) (name : String) (use : Session × Progress) :
    tellProgress ref name use = deliver ref (used name use) := by
  rcases use with ⟨s, result | call⟩ <;> rfl

theorem pause_eq (s : Session) (ref : RunRef) :
    s.pause ref = deliver ref (s, if isOverlong s.host.settings.pacingDelay then
      .reply (.raised .overlong) else if s.unpaced ref then .reply .paused else .hold .pause) := by
  unfold pause
  repeat' split
  all_goals rfl

/-- An answer to a run is a response that the run is told. -/
theorem answer_eq (s : Session) (ref : RunRef) (subject : TokenRef) (run : Run) :
    s.answer ref subject run = deliver ref (s.respond ref subject run) := by
  unfold answer respond
  cases run.stage with
  | asking => rfl
  | skipping | reporting | failing => exact tellNoted_eq ref _
  | acting | branching => exact tellProgress_eq ref _ _
  | pacing | settling => exact s.pause_eq ref
  | ended => rfl

/-- The response to a run that is held in something that comes to its end. -/
def respondHeld (s : Session) (ref : RunRef) (rested : Bool) : Hold → Session × Response
  | .pause => (s, .reply .paused)
  | .call call => used (s.playedName ref) (s.resume rested (s.unpaced ref) call)

/-- Taking up a run is a response that the run is told, and then the run is followed. -/
theorem takeUp_eq (s : Session) (ref : RunRef) (rested : Bool) (hold : Hold) :
    s.takeUp ref rested hold = match deliver ref (s.respondHeld ref rested hold) with
      | (s, some hold) => (s, .held hold)
      | (s, none) => s.follow ref := by
  cases hold with
  | pause => rfl
  | call call =>
    rw [respondHeld, ← tellProgress_eq]
    rfl

variable (s : Session) (ref : RunRef)

theorem spares_noticed {taken : Session × Option Mishap} (spares : s.Spares taken.1) :
    s.Spares (noticed taken).1 := by
  rcases taken with ⟨next, none | mishap⟩ <;> exact spares

theorem spares_used {s : Session} {name : String} {use : Session × Progress}
    (spares : s.Spares use.1) : s.Spares (used name use).1 := by
  rcases use with ⟨next, result | call⟩ <;> exact spares

/-- A response changes nothing of the engine, except that whoever is asked or told can stop it. -/
theorem spares_respond (subject : TokenRef) (run : Run) :
    s.Spares (s.respond ref subject run).1 := by
  unfold respond
  cases run.stage with
  | asking action rest => exact (s.keeps_judge subject run.ledger action).1.spares
  | skipping action rest => exact spares_noticed s (s.spares_notify _ _ _)
  | acting action rest | branching action rest =>
    exact spares_used (s.uses_dispatch subject action run.unpaced).spares
  | pacing action outcome rest | settling rest => exact (Keeps.refl s).spares
  | reporting => exact spares_noticed s (s.spares_notify _ _ _)
  | failing mishap =>
    exact spares_noticed s ((s.keeps_remark _ _ _).spares.trans (spares_notify _ _ _ _))
  | ended how => exact (Keeps.refl s).spares

theorem spares_respondHeld (s : Session) (ref : RunRef) (rested : Bool) (hold : Hold) :
    s.Spares (s.respondHeld ref rested hold).1 := by
  cases hold with
  | pause => exact (Keeps.refl s).spares
  | call call => exact spares_used (s.uses_resume rested (s.unpaced ref) call).spares

/-! ## Logs -/

/-- What a run was told while it was answered, and how it stood then. -/
def transcript (ref : RunRef) : Nat → Session → List (Run × Reply)
  | 0, _ => []
  | rank + 1, s =>
    match s.engine.entries[ref]? with
    | none => []
    | some ⟨subject, run⟩ => match s.respond ref subject run with
      | (s, .reply reply) => (run, reply) :: transcript ref rank (s.tell ref reply)
      | (_, .hold _) => []
      | (s, .nothing) => transcript ref rank s

/-- What a run is told while it is followed. -/
def followLog (s : Session) (ref : RunRef) : List (Run × Reply) :=
  transcript ref (((s.engine.run? ref).map (·.rank)).getD 0) s

/-- What a run is told from when it is taken up until it is over or held again. -/
def takeUpLog (s : Session) (ref : RunRef) (rested : Bool) (hold : Hold) : List (Run × Reply) :=
  match s.respondHeld ref rested hold with
  | (next, .reply reply) =>
    ((s.engine.run? ref).map (·, reply)).toList ++ (next.tell ref reply).followLog ref
  | (_, .hold _) => []
  | (next, .nothing) => next.followLog ref

end Session

/-! ## Performances -/

/-- What happens while a run is held: the table changes and gates are opened. `rested` tells
whether the pause in which the run is held, if it is held in one, goes to its end. -/
structure Interlude where
  scene : Table → Table
  opened : List String
  rested : Bool

/-- The session after an interlude. -/
def Interlude.session (interlude : Interlude) (s : Session) : Session :=
  { s with table := interlude.scene s.table, opened := interlude.opened ++ s.opened }

/-- How far the performance of a script has come. -/
structure Performance where
  ref : RunRef
  session : Session
  standing : Standing
  log : List (Run × Reply)

namespace Performance

/-- A performance goes on after an interlude, unless it is over. -/
def goOn (p : Performance) (interlude : Interlude) : Performance :=
  match p.standing with
  | .over _ => p
  | .held hold =>
    let s := interlude.session p.session
    { p with
      session := (s.takeUp p.ref interlude.rested hold).1
      standing := (s.takeUp p.ref interlude.rested hold).2
      log := p.log ++ s.takeUpLog p.ref interlude.rested hold }

/-- The run of a performance. -/
def run? (p : Performance) : Option Run :=
  p.session.engine.run? p.ref

end Performance

/-- The performance of a script for a token with some interludes, unless the script is dropped. -/
def Session.perform? (s : Session) (subject : TokenRef) (script : List Action)
    (interludes : List Interlude) : Option Performance :=
  (s.submit subject script).map fun (ref, s) =>
    interludes.foldl Performance.goOn
      { ref, session := (s.follow ref).1, standing := (s.follow ref).2, log := s.followLog ref }

/-- Running a script is performing it as far as it goes without an interlude. -/
theorem Session.run_eq_perform? (s : Session) (subject : TokenRef) (script : List Action) :
    s.run subject script = match s.perform? subject script [] with
      | none => (s, .over (.summary none))
      | some p => flowOfRun p.ref (p.session, p.standing) := by
  rw [run, perform?]
  cases s.submit subject script <;> rfl

/-- Taking up a run is going on with its performance. -/
theorem Performance.takeUpActivity_eq_goOn (p : Performance) (interlude : Interlude) {hold : Hold}
    (held : p.standing = .held hold) :
    (interlude.session p.session).takeUpActivity interlude.rested (.run p.ref hold) =
      Session.flowOfRun p.ref
        ((p.goOn interlude).session, (p.goOn interlude).standing) := by
  rw [goOn, held]
  rfl

/-! ## Accounts -/

/-- The dispatch that a reply concludes. -/
def Run.play? (r : Run) : Reply → Option (Action × Outcome)
  | .outcome outcome => r.played?.map (·, outcome)
  | _ => none

/-- The condition that a reply answers, with the verdict. -/
def Run.verdict? (r : Run) : Reply → Option (Condition × Bool)
  | .verdict holds => match r.stage with
    | .asking action _ => some (action.condition, holds)
    | _ => none
  | _ => none

/-- The dispatches that a log concludes, in the order of time. -/
def playsIn (log : List (Run × Reply)) : List (Action × Outcome) :=
  log.filterMap fun (run, reply) => run.play? reply

/-- The conditions that are asked in a log, with their verdicts, in the order of time. -/
def verdictsIn (log : List (Run × Reply)) : List (Condition × Bool) :=
  log.filterMap fun (run, reply) => run.verdict? reply

/-- A log accounts for how a run has come from one state to another: its ledger and its counts are
those of the dispatches and the verdicts in the log. -/
structure Run.Logs (r : Run) (log : List (Run × Reply)) (next : Run) : Prop where
  ledger : next.ledger = r.ledger.recordAll (playsIn log)
  executed : next.executed = r.executed + (playsIn log).length
  skipped : next.skipped = r.skipped + (verdictsIn log).countP (!·.2)

namespace Run

variable {r middle next : Run} {earlier later : List (Run × Reply)}

theorem Logs.refl (r : Run) : r.Logs [] r := ⟨rfl, rfl, rfl⟩

theorem Logs.trans (first : r.Logs earlier middle) (second : middle.Logs later next) :
    r.Logs (earlier ++ later) next where
  ledger := by
    rw [second.ledger, first.ledger]
    simp [playsIn]
  executed := by
    rw [second.executed, first.executed]
    simp [playsIn, Nat.add_assoc]
  skipped := by
    rw [second.skipped, first.skipped]
    simp [verdictsIn, Nat.add_assoc]

theorem branch_keeps (r : Run) (active : Bool) (action : Action) (outcome : Outcome)
    (rest : List Action) :
    r.branch active action outcome rest =
      { r with stage := (r.branch active action outcome rest).stage } := by
  unfold branch
  split
  · exact r.close_keeps
  · split
    · rfl
    · exact r.walk_keeps active rest

/-- Only a verdict and an outcome change more of a run than its stage. -/
theorem tell_keeps (r : Run) (active : Bool) {reply : Reply}
    (idle : reply = .noted ∨ (∃ mishap, reply = .raised mishap) ∨ reply = .paused) :
    r.tell active reply = { r with stage := (r.tell active reply).stage } := by
  obtain ⟨script, ledger, executed, skipped, stopped, unpaced, stage⟩ := r
  rcases idle with rfl | ⟨mishap, rfl⟩ | rfl
  · cases stage with
    | skipping action rest => exact walk_keeps _ active rest
    | _ => rfl
  · cases stage <;> rfl
  · cases stage with
    | pacing action outcome rest => exact branch_keeps _ active action outcome rest
    | settling rest =>
      cases active with
      | false => exact close_keeps _
      | true => exact walk_keeps _ true rest
    | _ => rfl

/-- A reply accounts for what a run makes of it. -/
theorem logs_tell (r : Run) (active : Bool) (reply : Reply) :
    r.Logs [(r, reply)] (r.tell active reply) := by
  cases reply with
  | verdict holds =>
    constructor <;> cases standing : r.stage <;> cases holds <;>
      simp [tell, standing, playsIn, verdictsIn, play?, verdict?, Ledger.recordAll]
  | outcome outcome =>
    constructor <;> cases standing : r.stage <;>
      simp [tell, standing, playsIn, verdictsIn, play?, verdict?, played?, record,
        Ledger.recordAll]
  | noted =>
    rw [r.tell_keeps active (.inl rfl)]
    exact ⟨rfl, rfl, rfl⟩
  | raised mishap =>
    rw [r.tell_keeps active (.inr (.inl ⟨mishap, rfl⟩))]
    exact ⟨rfl, rfl, rfl⟩
  | paused =>
    rw [r.tell_keeps active (.inr (.inr rfl))]
    exact ⟨rfl, rfl, rfl⟩

end Run

namespace Session

variable {s next : Session} {ref : RunRef} {r : Run}

/-- A run is there after a response, and at most it has been stopped. -/
theorem Spares.known (spares : s.Spares next) (known : s.engine.run? ref = some r) :
    ∃ run, next.engine.run? ref = some run ∧ (run = r ∨ run = r.halted) := by
  rcases spares.engine with same | stopped
  · exact ⟨r, by rw [same, known], .inl rfl⟩
  · rw [stopped, show s.engine.stop = s.engine.effect .stopped from rfl, Engine.run?_stopped, known]
    split
    · exact ⟨r.halted, rfl, .inr rfl⟩
    · exact ⟨r, rfl, .inl rfl⟩

/-- A run that is told a response accounts for it. -/
theorem Spares.logs_tell (spares : s.Spares next) (known : s.engine.run? ref = some r)
    (reply : Reply) :
    ∃ later, (next.tell ref reply).engine.run? ref = some later ∧ r.Logs [(r, reply)] later := by
  obtain ⟨run, knownNext, same⟩ := spares.known known
  have told := run.logs_tell (next.engine.isActive ref) reply
  refine ⟨run.tell (next.engine.isActive ref) reply, ?_, ?_⟩
  · simp [tell, Engine.tell, Engine.run?_change, knownNext]
  · rcases same with rfl | rfl
    · exact told
    · exact ⟨told.ledger, told.executed, told.skipped⟩

/-- A response that a run is not told is nothing to account for. -/
theorem Spares.logs_nothing (spares : s.Spares next) (known : s.engine.run? ref = some r) :
    ∃ later, next.engine.run? ref = some later ∧ r.Logs [] later := by
  obtain ⟨run, knownNext, same⟩ := spares.known known
  refine ⟨run, knownNext, ?_⟩
  rcases same with rfl | rfl <;> exact ⟨rfl, rfl, rfl⟩

/-- The transcript of a run that is driven accounts for it. -/
theorem logs_drive (known : s.engine.run? ref = some r) (rank : Nat) :
    ∃ later, (drive ref rank s).1.engine.run? ref = some later ∧
      r.Logs (transcript ref rank s) later := by
  induction rank generalizing s r with
  | zero => exact ⟨r, known, .refl r⟩
  | succ rank inductionHypothesis =>
    obtain ⟨subject, found⟩ := Engine.exists_entry known
    have spares := s.spares_respond ref subject r
    rw [drive, transcript, found]
    simp only [answer_eq]
    rcases responded : s.respond ref subject r with ⟨next, reply | hold | _⟩
    all_goals rw [responded] at spares
    · obtain ⟨told, knownTold, first⟩ := spares.logs_tell known reply
      obtain ⟨later, knownLater, rest⟩ := inductionHypothesis knownTold
      exact ⟨later, knownLater, first.trans rest⟩
    · exact spares.logs_nothing known
    · obtain ⟨run, knownNext, first⟩ := spares.logs_nothing known
      obtain ⟨later, knownLater, rest⟩ := inductionHypothesis knownNext
      exact ⟨later, knownLater, first.trans rest⟩

theorem logs_follow (known : s.engine.run? ref = some r) :
    ∃ later, (s.follow ref).1.engine.run? ref = some later ∧ r.Logs (s.followLog ref) later :=
  logs_drive known _

theorem logs_takeUp (known : s.engine.run? ref = some r) (rested : Bool) (hold : Hold) :
    ∃ later, (s.takeUp ref rested hold).1.engine.run? ref = some later ∧
      r.Logs (s.takeUpLog ref rested hold) later := by
  have spares := s.spares_respondHeld ref rested hold
  rw [takeUp_eq, takeUpLog, known]
  rcases responded : s.respondHeld ref rested hold with ⟨next, reply | hold | _⟩
  all_goals rw [responded] at spares
  · obtain ⟨told, knownTold, first⟩ := spares.logs_tell known reply
    obtain ⟨later, knownLater, rest⟩ := logs_follow knownTold
    exact ⟨later, knownLater, first.trans rest⟩
  · exact spares.logs_nothing known
  · obtain ⟨run, knownNext, first⟩ := spares.logs_nothing known
    obtain ⟨later, knownLater, rest⟩ := logs_follow knownNext
    exact ⟨later, knownLater, first.trans rest⟩

/-- A script that is not dropped has a new run, which has just begun. -/
theorem submit_fresh {ref : RunRef} {subject : TokenRef} {script : List Action}
    (submitted : s.submit subject script = some (ref, next)) :
    ref = s.engine.entries.length ∧ next.engine.run? ref = some (Run.begin script) := by
  obtain ⟨free, rfl, arrived, _⟩ := engine_submit submitted
  refine ⟨rfl, ?_⟩
  rw [arrived]
  exact Engine.run?_begun subject script free

end Session

namespace Performance

variable {r : Run}

/-- A performance has a run, and its log accounts for it from the beginning. -/
def Logged (p : Performance) (r : Run) : Prop :=
  ∃ later, p.run? = some later ∧ r.Logs p.log later

theorem Logged.goOn {p : Performance} (logged : p.Logged r) (interlude : Interlude) :
    (p.goOn interlude).Logged r := by
  obtain ⟨ref, session, result | hold, log⟩ := p
  · exact logged
  · obtain ⟨middle, known, first⟩ := logged
    have knownLater : (interlude.session session).engine.run? ref = some middle := known
    obtain ⟨later, taken, rest⟩ := Session.logs_takeUp knownLater interlude.rested hold
    exact ⟨later, taken, first.trans rest⟩

theorem Logged.foldl_goOn {p : Performance} (logged : p.Logged r) (interludes : List Interlude) :
    (interludes.foldl Performance.goOn p).Logged r := by
  induction interludes generalizing p with
  | nil => exact logged
  | cons interlude rest inductionHypothesis => exact inductionHypothesis (logged.goOn interlude)

end Performance

/-- The ledger of a performance is that of the dispatches in its log, in the order of time, and
its counts are theirs and those of the conditions that did not hold. -/
theorem Session.logged_perform? {s : Session} {subject : TokenRef} {script : List Action}
    {interludes : List Interlude} {p : Performance}
    (performed : s.perform? subject script interludes = some p) :
    ∃ r, p.run? = some r ∧ r.ledger = Ledger.recordAll [] (playsIn p.log) ∧
      r.executed = (playsIn p.log).length ∧ r.skipped = (verdictsIn p.log).countP (!·.2) := by
  obtain ⟨⟨ref, next⟩, submitted, rfl⟩ := Option.map_eq_some_iff.mp performed
  have started : Performance.Logged
      { ref, session := (next.follow ref).1, standing := (next.follow ref).2,
        log := next.followLog ref } (Run.begin script) := logs_follow (submit_fresh submitted).2
  obtain ⟨later, known, logs⟩ := started.foldl_goOn interludes
  have begun := Run.walk_keeps { script, stage := .reporting : Run } true (runnable script)
  refine ⟨later, known, ?_, ?_, ?_⟩
  · rw [logs.ledger, Run.begin, begun]
  · rw [logs.executed, Run.begin, begun, Nat.zero_add]
  · rw [logs.skipped, Run.begin, begun, Nat.zero_add]

end TurnScript
