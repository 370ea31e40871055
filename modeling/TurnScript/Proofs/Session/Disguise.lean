import TurnScript.Proofs.Engine.Renaming
import TurnScript.Proofs.Session.Performance

/-!
# Performances in disguise

Two sessions in which the same script runs under different ids are two disguises of one session:
the run is renamed, and so are the ids of which the host has been told since it began. Whoever
plays an action, asks a condition or takes a notice sees nothing of the disguise, so every response
to a disguised run is the response to the run. Carried through all that a run is told, performing a
renamed script in a disguised session is disguising the performance.
-/

namespace TurnScript

namespace Renaming

variable (π : Renaming)

/-- The renaming of a summary. -/
def summary (s : Summary) : Summary :=
  { s with results := π.ledger s.results }

/-- The renaming of an event. -/
def event : Event → Event
  | .skipped subject action reason => .skipped subject (π.name action) reason
  | .rangeAsked subject action => .rangeAsked subject (action.map π.name)
  | .turnRan summary => .turnRan (summary.map π.summary)
  | event => event

/-- The renaming of what a run has come to. -/
def standing : Standing → Standing
  | .over result => .over (result.map π.summary)
  | .held hold => .held hold

end Renaming

/-- A disguise of a session: a renaming of one of its runs, and what has been told before. -/
structure Disguise where
  names : Renaming
  ref : RunRef
  earlier : List Event

namespace Disguise

variable (d : Disguise) (s : Session)

/-- The disguise of a session. -/
def session : Session :=
  { s with
    engine := d.names.engine d.ref s.engine
    trace := s.trace.map d.names.event ++ d.earlier }

/-- The disguise of a session that comes with a result. -/
def outcome {α : Type} (outcome : Session × α) : Session × α :=
  (d.session outcome.1, outcome.2)

@[simp] theorem host_session : (d.session s).host = s.host := rfl

@[simp] theorem table_session : (d.session s).table = s.table := rfl

@[simp] theorem opened_session : (d.session s).opened = s.opened := rfl

@[simp] theorem heldForNobody_session : (d.session s).heldForNobody = s.heldForNobody := rfl

@[simp] theorem token_session (ref : TokenRef) : (d.session s).token ref = s.token ref := rfl

/-! ## Stops and notices -/

theorem emit_session (event : Event) :
    (d.session s).emit (d.names.event event) = d.session (s.emit event) := rfl

theorem remark_session (source : String) (level : Level) (text : String) :
    (d.session s).remark source level text = d.session (s.remark source level text) := rfl

theorem withTable_session (table : Table) :
    (d.session s).withTable table = d.session (s.withTable table) := by
  simp [Session.withTable, session, Function.comp_def, Renaming.event]

theorem status_session : (d.session s).status = s.status := by
  have same : (d.session s).engine.status = s.engine.status := Renaming.status_engine _ _ _
  simp only [Session.status, same, heldForNobody_session, token_session]

theorem stop_session : (d.session s).stop = d.outcome s.stop := by
  have status : (d.session s).engine.status = s.engine.status := Renaming.status_engine _ _ _
  have stopped : (d.session s).engine.stop = d.names.engine d.ref s.engine.stop :=
    Renaming.stop_engine _ _ _
  simp only [Session.stop, status, stopped, heldForNobody_session]
  split
  · rfl
  · cases s.engine.status.subject <;> rfl

/-- A notice of an event is taken alike if the event is told under the new ids. -/
theorem notify_session (notice : Notice) (event : Event) (line : Level × String) :
    (d.session s).notify notice (d.names.event event) line =
      d.outcome (s.notify notice event line) := by
  simp only [Session.notify, emit_session, stop_session, host_session]
  cases s.host.logsNotices with
  | true => rfl
  | false => cases s.emit event |>.host.stopsAt.contains notice <;> rfl

/-! ## Uses -/

theorem askStatus_session (cue : Cue) :
    (d.session s).askStatus cue = d.outcome (s.askStatus cue) := by
  simp only [Session.askStatus, status_session]
  split
  · cases s.status <;> rfl
  · rfl

theorem perform_session (part : Part) (cue : Cue) (asAttack : Bool) :
    (d.session s).perform part cue asAttack = d.outcome (s.perform part cue asAttack) := by
  have stopped : (if cue.stops then (d.session s).stop else (d.session s, none)) =
      d.outcome (if cue.stops then s.stop else (s, none)) := by
    rw [stop_session]
    split <;> rfl
  simp only [Session.perform, stopped]
  rcases if cue.stops then s.stop else (s, none) with ⟨halted, none | mishap⟩
  · simp only [outcome, askStatus_session]
    rcases halted.askStatus cue with ⟨asked, none | mishap⟩ <;> rfl
  · rfl

theorem playCue_session (part : Part) (key : Option String) (asAttack : Bool) :
    (d.session s).playCue part key asAttack = d.outcome (s.playCue part key asAttack) := by
  simp only [Session.playCue, perform_session, host_session, opened_session]
  split <;> rfl

theorem playPart_session (part : Part) (subject : TokenRef) (key : Option String) :
    (d.session s).playPart part subject key = d.outcome (s.playPart part subject key) :=
  playCue_session d (s.emit (.played part (s.token subject).id key)) part key false

theorem playWorkflow_session (subject : TokenRef) (item : Item) (targets : List TokenRef)
    (consume asAttack : Bool) :
    (d.session s).playWorkflow subject item targets consume asAttack =
      d.outcome (s.playWorkflow subject item targets consume asAttack) :=
  playCue_session d (s.emit (.workflow (s.token subject).id item.id
    (targets.map fun ref => (s.token ref).id) consume)) .workflow (some item.id) asAttack

theorem resolved_session (result : Played × Table) :
    (d.session s).resolved result = d.outcome (s.resolved result) := by
  rw [Session.resolved, withTable_session]
  rfl

theorem playAttack_session (subject : TokenRef) (payload : AttackPayload) :
    (d.session s).playAttack subject payload = d.outcome (s.playAttack subject payload) := by
  simp only [Session.playAttack, playWorkflow_session, resolved_session, table_session,
    host_session]
  cases s.table.board.prepareAttack subject payload s.host.reveals with
  | error outcome => rfl
  | ok ready => cases s.host.usesWorkflow <;> rfl

theorem playItem_session (subject : TokenRef) (payload : ItemPayload) :
    (d.session s).playItem subject payload = d.outcome (s.playItem subject payload) := by
  simp only [Session.playItem, playWorkflow_session, resolved_session, table_session, host_session]
  cases s.table.board.usableItem subject payload.itemId with
  | error outcome => rfl
  | ok item => cases s.host.usesWorkflow <;> rfl

theorem walkOn_session (mover : TokenRef) (goal : Position) (unpaced : Bool)
    (squares : List Position) :
    (d.session s).walkOn mover goal unpaced squares =
      d.outcome (s.walkOn mover goal unpaced squares) := by
  cases squares with
  | nil =>
    simp only [Session.walkOn, withTable_session, table_session, token_session]
    rfl
  | cons square ahead =>
    by_cases overlong : isOverlong s.host.settings.waypointDelay = true
    · simp only [Session.walkOn, host_session, overlong, if_true]
      rfl
    · simp only [Session.walkOn, host_session, overlong, if_false, Bool.false_eq_true]
      cases unpaced <;> rfl

theorem playMovement_session (subject : TokenRef) (payload : MovementPayload) (unpaced : Bool) :
    (d.session s).playMovement subject payload unpaced =
      d.outcome (s.playMovement subject payload unpaced) := by
  simp only [Session.playMovement, table_session, host_session]
  cases s.table.board.planMovement subject payload s.host.reveals s.host.settings.defaultSpeed with
  | error played => rfl
  | ok route =>
    by_cases walked : route.walked = true
    · simp only [walked, if_true]
      exact walkOn_session d s subject route.goal unpaced route.squares
    · simp only [walked, if_false, Bool.false_eq_true]
      exact walkOn_session d { s with table := s.table.step (s.token subject).id route.goal }
        subject route.goal unpaced []

theorem resume_session (rested unpaced : Bool) (call : Call) :
    (d.session s).resume rested unpaced call = d.outcome (s.resume rested unpaced call) := by
  cases call with
  | walk mover here ahead goal =>
    simp only [Session.resume, walkOn_session]
    split <;> rfl
  | cued part cue asAttack =>
    simp only [Session.resume, perform_session]
    rfl

/-- What plays the data of an action plays that of the renamed one. -/
theorem playAs_session {α : Type} (part : Part) (player : Player) (action : Action)
    (read : Fields → Record.Checked α) {play disguised : α → Session × Progress}
    (alike : ∀ payload, disguised payload = d.outcome (play payload)) :
    (d.session s).playAs part player (d.names.action action) read disguised =
      d.outcome (s.playAs part player action read play) := by
  have data : (d.names.action action).data = action.data := rfl
  simp only [Session.playAs, data]
  split
  · rfl
  · cases read action.data with
    | refused faults => rfl
    | ok payload => exact alike payload

theorem dispatch_session (subject : TokenRef) (action : Action) (unpaced : Bool) :
    (d.session s).dispatch subject (d.names.action action) unpaced =
      d.outcome (s.dispatch subject action unpaced) := by
  have kind : (d.names.action action).kind = action.kind := rfl
  simp only [Session.dispatch, Session.dispatchBy, kind, host_session]
  cases action.kind with
  | movement =>
    refine playAs_session d s _ _ action _ fun payload => ?_
    rw [playPart_session, playMovement_session]
    exact (apply_ite d.outcome _ _ _).symm
  | attack | spell | bonusAction | reaction =>
    refine playAs_session d s _ _ action _ fun payload => ?_
    rw [playPart_session, playAttack_session]
    exact (apply_ite d.outcome _ _ _).symm
  | item =>
    refine playAs_session d s _ _ action _ fun payload => ?_
    rw [playPart_session, playItem_session]
    exact (apply_ite d.outcome _ _ _).symm
  | endTurn => rfl
  | other name => rfl

/-! ## Answers to a run -/

theorem askRange_session (subject : TokenRef) (action : Action) :
    (d.session s).askRange subject (d.names.action action) =
      d.outcome (s.askRange subject action) := by
  simp only [Session.askRange, host_session]
  cases s.host.range <;> rfl

theorem judge_session (subject : TokenRef) (ledger : Ledger) (action : Action) :
    (d.session s).judge subject (d.names.ledger ledger) (d.names.action action) =
      d.outcome (s.judge subject ledger action) := by
  have condition : (d.names.action action).condition = action.condition := rfl
  simp only [Session.judge, askRange_session, Renaming.verdict_ledger, condition]
  split <;> rfl

/-! ## Responses to a run -/

theorem notifySkip_session (subject : Token) (action : Action) :
    (d.session s).notifySkip subject (d.names.action action) =
      d.outcome (s.notifySkip subject action) :=
  notify_session d s .skip (.skipped subject.id action.id Session.skipReason) _

theorem notifySummary_session (subject : Token) (executed : Nat) :
    (d.session s).notifySummary subject executed = d.outcome (s.notifySummary subject executed) :=
  notify_session d s .summary (.summarised subject.id executed) _

theorem notifyError_session (subject : Token) (error : String) :
    (d.session s).notifyError subject error = d.outcome (s.notifyError subject error) :=
  notify_session d s .error (.failed subject.id error) _

theorem noticed_outcome (taken : Session × Option Mishap) :
    Session.noticed (d.outcome taken) = d.outcome (Session.noticed taken) := by
  rcases taken with ⟨s, none | mishap⟩ <;> rfl

theorem used_outcome (name : String) (use : Session × Progress) :
    Session.used name (d.outcome use) = d.outcome (Session.used name use) := by
  rcases use with ⟨s, result | call⟩ <;> rfl

theorem unpaced_session : (d.session s).unpaced d.ref = s.unpaced d.ref := by
  rw [Session.unpaced, show (d.session s).engine = d.names.engine d.ref s.engine from rfl,
    Renaming.run?_engine, Session.unpaced]
  cases s.engine.run? d.ref <;> rfl

/-- The response to a disguised run is the response to the run. -/
theorem respond_session (subject : TokenRef) (run : Run) :
    (d.session s).respond d.ref subject (d.names.run run) =
      d.outcome (s.respond d.ref subject run) := by
  have staged : (d.names.run run).stage = d.names.stage run.stage := rfl
  cases standing : run.stage with
  | asking action rest =>
    simp only [Session.respond, staged, standing, Renaming.stage]
    rw [show (d.names.run run).ledger = d.names.ledger run.ledger from rfl, judge_session]
    rfl
  | skipping action rest =>
    simp only [Session.respond, staged, standing, Renaming.stage, token_session,
      notifySkip_session, noticed_outcome]
  | acting action rest | branching action rest =>
    simp only [Session.respond, staged, standing, Renaming.stage]
    rw [show (d.names.run run).unpaced = run.unpaced from rfl, dispatch_session,
      show (d.names.action action).name = action.name from rfl, used_outcome]
  | pacing action outcome rest | settling rest =>
    simp only [Session.respond, staged, standing, Renaming.stage, host_session, unpaced_session]
    rfl
  | reporting =>
    simp only [Session.respond, staged, standing, Renaming.stage, token_session,
      notifySummary_session, noticed_outcome]
    rfl
  | failing mishap =>
    simp only [Session.respond, staged, standing, Renaming.stage, token_session, remark_session,
      notifyError_session, noticed_outcome]
  | ended how =>
    simp only [Session.respond, staged, standing, Renaming.stage]
    rfl

end Disguise

/-! ## Scripts -/

namespace Session

variable {s next : Session} {ref : RunRef}

/-- Runs keep their scripts through a stop. -/
theorem Spares.script?_eq (spares : s.Spares next) (ref : RunRef) :
    next.engine.script? ref = s.engine.script? ref := by
  rcases spares.engine with same | stopped
  · rw [same]
  · rw [stopped, Engine.script?_stop]

theorem script?_deliver {response : Session × Response} :
    (deliver ref response).1.engine.script? ref = response.1.engine.script? ref := by
  rcases response with ⟨next, reply | hold | _⟩
  · exact Engine.script?_tell _ _ _ _
  · rfl
  · rfl

theorem script?_answer (s : Session) (ref : RunRef) (subject : TokenRef) (run : Run) :
    (s.answer ref subject run).1.engine.script? ref = s.engine.script? ref := by
  rw [answer_eq, script?_deliver, (s.spares_respond ref subject run).script?_eq ref]

theorem script?_drive (ref : RunRef) (rank : Nat) (s : Session) :
    (drive ref rank s).1.engine.script? ref = s.engine.script? ref := by
  induction rank generalizing s with
  | zero => rfl
  | succ rank inductionHypothesis =>
    unfold drive
    cases s.engine.entries[ref]? with
    | none => rfl
    | some entry =>
      have kept := s.script?_answer ref entry.subject entry.run
      rcases answered : s.answer ref entry.subject entry.run with ⟨next, none | hold⟩
      · rw [answered] at kept
        simp only [answered, inductionHypothesis, kept]
      · rw [answered] at kept
        simp only [answered, kept]

theorem script?_takeUp (s : Session) (ref : RunRef) (rested : Bool) (hold : Hold) :
    (s.takeUp ref rested hold).1.engine.script? ref = s.engine.script? ref := by
  have spares := s.spares_respondHeld ref rested hold
  have delivered : (deliver ref (s.respondHeld ref rested hold)).1.engine.script? ref =
      s.engine.script? ref := script?_deliver.trans (spares.script?_eq ref)
  rw [takeUp_eq]
  rcases told : deliver ref (s.respondHeld ref rested hold) with ⟨next, none | hold⟩
  · rw [told] at delivered
    exact (script?_drive ref _ next).trans delivered
  · rw [told] at delivered
    exact delivered

end Session

/-! ## Performances in disguise -/

namespace Disguise

variable {d : Disguise} {s next : Session}

/-- The disguise of what a run has come to. -/
def standing (d : Disguise) (standing : Session × Standing) : Session × Standing :=
  (d.session standing.1, d.names.standing standing.2)

/-- The disguise of a log. -/
def log (d : Disguise) (log : List (Run × Reply)) : List (Run × Reply) :=
  log.map fun (run, reply) => (d.names.run run, reply)

/-- The disguise of a performance. -/
def performance (d : Disguise) (p : Performance) : Performance :=
  { p with session := d.session p.session, standing := d.names.standing p.standing, log := d.log p.log }

/-- A disguise suits a session if its renaming suits the script of the run that it renames. -/
def Suits (d : Disguise) (s : Session) : Prop :=
  ∀ script ∈ s.engine.script? d.ref, d.names.Suits script

theorem Suits.of_script? (suits : d.Suits s)
    (kept : next.engine.script? d.ref = s.engine.script? d.ref) : d.Suits next := by
  unfold Suits
  rw [kept]
  exact suits

theorem run?_session (d : Disguise) (s : Session) :
    (d.session s).engine.run? d.ref = (s.engine.run? d.ref).map d.names.run :=
  Renaming.run?_engine _ _ _

theorem tell_session (suits : d.Suits s) (reply : Reply) :
    (d.session s).tell d.ref reply = d.session (s.tell d.ref reply) := by
  have told : (d.session s).engine.tell d.ref reply =
      d.names.engine d.ref (s.engine.tell d.ref reply) := Renaming.tell_engine suits reply
  rw [Session.tell, told]
  rfl

theorem result_session (d : Disguise) (s : Session) :
    (d.session s).result d.ref = (s.result d.ref).map d.names.summary := by
  have entry := Renaming.entries_engine d.names d.ref s.engine
  rw [Session.result, show (d.session s).engine = d.names.engine d.ref s.engine from rfl, entry,
    Session.result]
  rcases s.engine.entries[d.ref]? with _ | ⟨subject, run⟩
  · rfl
  · have staged : (d.names.run run).stage = d.names.stage run.stage := rfl
    simp only [Option.map_some, staged]
    cases run.stage with
    | ended how => cases how <;> rfl
    | _ => rfl

theorem over_session (d : Disguise) (s : Session) :
    (d.session s, .over ((d.session s).result d.ref)) = d.standing (s, .over (s.result d.ref)) := by
  rw [result_session]
  rfl

/-- Driving a disguised run is disguising the run that is driven. -/
theorem drive_session (rank : Nat) (suits : d.Suits s) :
    Session.drive d.ref rank (d.session s) = d.standing (Session.drive d.ref rank s) ∧
      Session.transcript d.ref rank (d.session s) = d.log (Session.transcript d.ref rank s) := by
  induction rank generalizing s with
  | zero => exact ⟨over_session d s, rfl⟩
  | succ rank inductionHypothesis =>
    have entry := Renaming.entries_engine d.names d.ref s.engine
    rw [Session.drive, Session.drive, Session.transcript, Session.transcript,
      show (d.session s).engine = d.names.engine d.ref s.engine from rfl, entry]
    rcases s.engine.entries[d.ref]? with _ | ⟨subject, run⟩
    · exact ⟨over_session d s, rfl⟩
    · have kept := (s.spares_respond d.ref subject run).script?_eq d.ref
      have response := respond_session d s subject run
      simp only [Option.map_some, Session.answer_eq, response]
      rcases responded : s.respond d.ref subject run with ⟨next, reply | hold | _⟩
      · rw [responded] at kept
        have suitsNext : d.Suits next := suits.of_script? kept
        have suitsTold : d.Suits (next.tell d.ref reply) :=
          suitsNext.of_script? (Engine.script?_tell _ _ _ _)
        obtain ⟨driven, logged⟩ := inductionHypothesis suitsTold
        constructor
        · simp only [outcome, Session.deliver, tell_session suitsNext, driven]
        · simp only [outcome, tell_session suitsNext, logged]
          rfl
      · exact ⟨rfl, rfl⟩
      · rw [responded] at kept
        exact inductionHypothesis (suits.of_script? kept)

theorem follow_session (suits : d.Suits s) :
    (d.session s).follow d.ref = d.standing (s.follow d.ref) ∧
      (d.session s).followLog d.ref = d.log (s.followLog d.ref) := by
  have rank : ((d.session s).engine.run? d.ref).map (·.rank) =
      (s.engine.run? d.ref).map (·.rank) := by
    rw [run?_session]
    simp [Function.comp_def, Renaming.rank_run]
  rw [Session.follow, Session.followLog, rank]
  exact drive_session _ suits

theorem respondHeld_session (d : Disguise) (s : Session) (rested : Bool) (hold : Hold) :
    (d.session s).respondHeld d.ref rested hold = d.outcome (s.respondHeld d.ref rested hold) := by
  have named : (d.session s).playedName d.ref = s.playedName d.ref := by
    rw [Session.playedName, run?_session, Session.playedName]
    cases s.engine.run? d.ref with
    | none => rfl
    | some r =>
      simp only [Option.map_some, Option.bind_some, Renaming.played?_run]
      cases r.played? <;> rfl
  cases hold with
  | pause => rfl
  | call call =>
    simp only [Session.respondHeld, named, unpaced_session, resume_session, used_outcome]

theorem takeUp_session (suits : d.Suits s) (rested : Bool) (hold : Hold) :
    (d.session s).takeUp d.ref rested hold = d.standing (s.takeUp d.ref rested hold) ∧
      (d.session s).takeUpLog d.ref rested hold = d.log (s.takeUpLog d.ref rested hold) := by
  have kept := (s.spares_respondHeld d.ref rested hold).script?_eq d.ref
  rw [Session.takeUp_eq, Session.takeUp_eq, Session.takeUpLog, Session.takeUpLog, run?_session,
    respondHeld_session]
  rcases responded : s.respondHeld d.ref rested hold with ⟨next, reply | hold | _⟩
  · rw [responded] at kept
    have suitsNext : d.Suits next := suits.of_script? kept
    have suitsTold : d.Suits (next.tell d.ref reply) :=
      suitsNext.of_script? (Engine.script?_tell _ _ _ _)
    obtain ⟨followed, logged⟩ := follow_session suitsTold
    constructor
    · simp only [outcome, Session.deliver, tell_session suitsNext, followed]
    · simp only [outcome, tell_session suitsNext, logged]
      cases s.engine.run? d.ref <;> rfl
  · exact ⟨rfl, rfl⟩
  · rw [responded] at kept
    exact follow_session (suits.of_script? kept)

theorem goOn_performance {p : Performance} (mine : p.ref = d.ref) (suits : d.Suits p.session)
    (interlude : Interlude) :
    (d.performance p).goOn interlude = d.performance (p.goOn interlude) := by
  obtain ⟨ref, session, result | hold, log⟩ := p
  · rfl
  · obtain rfl : ref = d.ref := mine
    have suitsLater : d.Suits (interlude.session session) := suits
    obtain ⟨taken, logged⟩ := takeUp_session suitsLater interlude.rested hold
    have interrupted : interlude.session (d.session session) =
        d.session (interlude.session session) := rfl
    have stillHeld : d.names.standing (.held hold) = .held hold := rfl
    simp only [performance, Performance.goOn, stillHeld, interrupted, taken, logged,
      Disguise.standing, Disguise.log, List.map_append]

/-- Interludes neither change whose run a performance is of nor what the run's script is. -/
theorem suits_goOn {p : Performance} (mine : p.ref = d.ref) (suits : d.Suits p.session)
    (interlude : Interlude) :
    (p.goOn interlude).ref = d.ref ∧ d.Suits (p.goOn interlude).session := by
  obtain ⟨ref, session, result | hold, log⟩ := p
  · exact ⟨mine, suits⟩
  · obtain rfl : ref = d.ref := mine
    have suitsLater : d.Suits (interlude.session session) := suits
    exact ⟨rfl, suitsLater.of_script? (Session.script?_takeUp _ _ _ _)⟩

theorem foldl_goOn_performance {p : Performance} (mine : p.ref = d.ref)
    (suits : d.Suits p.session) (interludes : List Interlude) :
    interludes.foldl Performance.goOn (d.performance p) =
      d.performance (interludes.foldl Performance.goOn p) := by
  induction interludes generalizing p with
  | nil => rfl
  | cons interlude rest inductionHypothesis =>
    obtain ⟨still, suitsLater⟩ := suits_goOn mine suits interlude
    rw [List.foldl_cons, List.foldl_cons, goOn_performance mine suits]
    exact inductionHypothesis still suitsLater

variable {script : List Action}

theorem submit_session (fresh : d.ref = s.engine.entries.length)
    (walked : runnable (script.map d.names.action) = (runnable script).map d.names.action)
    (subject : TokenRef) :
    (d.session s).submit subject (script.map d.names.action) =
      (s.submit subject script).map fun (ref, next) => (ref, d.session next) := by
  have engine : (d.session s).engine = s.engine :=
    Renaming.engine_beyond _ (Nat.le_of_eq fresh.symm)
  simp only [Session.submit, heldForNobody_session, engine, Renaming.submit_engine walked,
    walked, List.length_map, token_session]
  split
  · rfl
  · rw [← fresh]
    cases s.engine.submit subject script <;> rfl

/-- Performing a renamed script in a disguised session is disguising the performance. -/
theorem perform?_session (fresh : d.ref = s.engine.entries.length) (suits : d.names.Suits script)
    (walked : runnable (script.map d.names.action) = (runnable script).map d.names.action)
    (subject : TokenRef) (interludes : List Interlude) :
    (d.session s).perform? subject (script.map d.names.action) interludes =
      (s.perform? subject script interludes).map d.performance := by
  rw [Session.perform?, Session.perform?, submit_session fresh walked]
  rcases submitted : s.submit subject script with _ | ⟨ref, next⟩
  · rfl
  · obtain ⟨new, begun⟩ := Session.submit_fresh submitted
    obtain rfl : ref = d.ref := new.trans fresh.symm
    have suitsNext : d.Suits next := by
      simp only [Suits, Engine.script?, begun, Option.map_some, (Run.begin_untouched script).1]
      simpa using suits
    obtain ⟨followed, logged⟩ := follow_session suitsNext
    have suitsFollowed : d.Suits (next.follow d.ref).1 :=
      suitsNext.of_script? (Session.script?_drive _ _ _)
    let start : Performance :=
      ⟨d.ref, (next.follow d.ref).1, (next.follow d.ref).2, next.followLog d.ref⟩
    simp only [Option.map_some, followed, logged]
    exact congrArg some (foldl_goOn_performance (p := start) rfl suitsFollowed interludes)

end Disguise
end TurnScript
