import TurnScript.Proofs.Play.Outcomes
import TurnScript.Proofs.Session.Performance

/-!
# What runs leave of combats

A run plays actions, which can hurt tokens, move them and make them pay. No run has anything to do
with the combats of its session: it changes none of them, tells nobody of a turn, and every token
goes by its id as before. It writes nothing to the archive either, and what is looked up there for a
turn is only read.
-/

namespace TurnScript

/-! ## Ids -/

/-- A board on which every token goes by the id that it had. -/
def Board.KeepsIds (b after : Board) : Prop :=
  ∀ ref, (after.token ref).id = (b.token ref).id

namespace Board

theorem KeepsIds.refl (b : Board) : b.KeepsIds b := fun _ => rfl

theorem KeepsIds.trans {first second third : Board} (early : first.KeepsIds second)
    (late : second.KeepsIds third) : first.KeepsIds third :=
  fun ref => (late ref).trans (early ref)

theorem keepsIds_change (b : Board) (ref : TokenRef) {f : Token → Token}
    (kept : ∀ t, (f t).id = t.id) : b.KeepsIds (b.change ref f) := by
  intro other
  rw [token_change]
  split
  · exact kept _
  · rfl

theorem Wounded.keepsIds {b after : Board} {victim : TokenRef} (wounded : b.Wounded after victim) :
    b.KeepsIds after := by
  rcases wounded with rfl | ⟨hp, rfl⟩
  · exact .refl _
  · exact b.keepsIds_change victim fun _ => rfl

theorem keepsIds_consume (b : Board) (user : TokenRef) (item : Item) :
    b.KeepsIds (b.consume user item) := by
  refine (b.changeItem item.id Item.spendUse).keepsIds_change user fun t => ?_
  unfold Token.spend
  split <;> split <;> rfl

theorem keepsIds_move (b : Board) (id : String) (square : Position) :
    b.KeepsIds (b.move id square).2 := by
  unfold move
  split
  · exact .refl b
  · exact b.keepsIds_change _ fun _ => rfl

end Board

namespace Table

theorem board_conclude (table : Table) (source : String) (figures : List Int)
    (outcome : Outcome) : (table.conclude source figures outcome).2.board = table.board := by
  unfold conclude
  split <;> rfl

/-- Whatever closes an attack after its damage, the damage keeps the ids. -/
theorem keepsIds_damageOf {table rolled : Table} {subject : TokenRef} {attack : ReadyAttack}
    {does critical halve : Bool} {close : Int → Table → Played × Table}
    (same : rolled.board = table.board)
    (closes : ∀ damage hurt, (close damage hurt).2.board = hurt.board) :
    table.board.KeepsIds (match rolled.damageOf subject attack does critical halve with
      | (.error mishap, table) => (Except.error mishap, table)
      | (.ok damage, table) => close damage table : Played × Table).2.board := by
  have wounded := (rolled.damageOf_board subject attack does critical halve).2
  rw [same] at wounded
  generalize rolled.damageOf subject attack does critical halve = done at wounded ⊢
  obtain ⟨_ | damage, hurt⟩ := done
  · exact wounded.keepsIds
  · rw [closes]
    exact wounded.keepsIds

theorem keepsIds_resolveRoll (table : Table) (subject : TokenRef) (attack : ReadyAttack)
    (bonus : Int) (override : Option Bool) :
    table.board.KeepsIds (table.resolveRoll subject attack bonus override).2.board := by
  unfold resolveRoll
  dsimp only
  split
  · exact .refl _
  · exact keepsIds_damageOf rfl fun _ _ => board_conclude _ _ _ _

theorem keepsIds_resolveSave (table : Table) (subject : TokenRef) (attack : ReadyAttack)
    (dc : Int) : table.board.KeepsIds (table.resolveSave subject attack dc).2.board := by
  have same := (table.rollSave_board attack dc).1
  unfold resolveSave
  split
  · next mishap rolled thrown =>
    rw [thrown] at same
    rw [same]
    exact .refl _
  · next saved rolled thrown =>
    rw [thrown] at same
    exact keepsIds_damageOf same fun _ _ => board_conclude _ _ _ _

theorem keepsIds_resolveAttack (table : Table) (subject : TokenRef) (attack : ReadyAttack)
    (payload : AttackPayload) :
    table.board.KeepsIds (table.resolveAttack subject attack payload).2.board := by
  unfold resolveAttack
  have paid : table.board.KeepsIds (if payload.consumeResource then
      { table with board := table.board.consume subject attack.item } else table).board := by
    split
    · exact table.board.keepsIds_consume subject attack.item
    · exact .refl _
  dsimp only
  split
  · exact paid.trans (keepsIds_resolveRoll _ subject attack _ _)
  · exact paid.trans (keepsIds_resolveSave _ subject attack _)
  · rw [resolvePlain, board_conclude]
    exact paid

theorem keepsIds_resolveItem (table : Table) (subject : TokenRef) (item : Item) :
    table.board.KeepsIds (table.resolveItem subject item).2.board := by
  refine (table.board.keepsIds_consume subject item).trans ?_
  unfold resolveItem
  dsimp only
  split
  · rw [board_conclude]
    exact .refl _
  · split
    · exact .refl _
    · rw [board_conclude]
      exact Board.keepsIds_change _ subject fun _ => rfl

end Table

/-! ## Archives -/

namespace Archive

variable (a : Archive) (subject : String)

/-- Loading a queue leaves every row. -/
theorem rows_load : (a.load subject).2.rows = a.rows := by
  unfold load
  split
  · rfl
  · split <;> rfl

theorem rows_isEnabled : (a.isEnabled subject).2.rows = a.rows := by
  have loaded := a.rows_load subject
  unfold isEnabled
  split <;> next found => rwa [found] at loaded

theorem rows_queue : (a.queue subject).2.rows = a.rows := by
  have loaded := a.rows_load subject
  unfold queue
  split <;> next found => rwa [found] at loaded

theorem rows_sortedQueue : (a.sortedQueue subject).2.rows = a.rows :=
  a.rows_queue subject

end Archive

/-! ## Sessions -/

/-- The turn that a listener is told of by an event, if any: the round and the id of the token. -/
def Event.turn? : Event → Option (Nat × String)
  | .turnBegan round token => some (round, token)
  | _ => none

namespace Session

/-- The turns that listeners have been told of, latest first, one for each listener. -/
def turnsTold (s : Session) : List (Nat × String) :=
  s.trace.filterMap Event.turn?

/-- A session in which nothing has become of the combats and of the stored queues, nobody has been
told of a turn, every token goes by its id, and the engine is not newly held for nobody. -/
structure Quiet (s next : Session) : Prop where
  combats : next.combats = s.combats
  told : next.turnsTold = s.turnsTold
  ids : s.table.board.KeepsIds next.table.board
  rows : next.archive.rows = s.archive.rows
  held : next.heldForNobody = s.heldForNobody

variable {s middle next : Session} {ref : RunRef}

theorem Quiet.refl (s : Session) : s.Quiet s := ⟨rfl, rfl, .refl _, rfl, rfl⟩

theorem Quiet.trans (first : s.Quiet middle) (second : middle.Quiet next) : s.Quiet next :=
  ⟨second.combats.trans first.combats, second.told.trans first.told, first.ids.trans second.ids,
    second.rows.trans first.rows, second.held.trans first.held⟩

theorem quiet_emit (s : Session) {event : Event} (silent : event.turn? = none) :
    s.Quiet (s.emit event) :=
  ⟨rfl, List.filterMap_cons_none silent, .refl _, rfl, rfl⟩

theorem quiet_remark (s : Session) (source : String) (level : Level) (text : String) :
    s.Quiet (s.remark source level text) :=
  s.quiet_emit rfl

theorem turnsTold_withTable (s : Session) (table : Table) :
    (s.withTable table).turnsTold = s.turnsTold := by
  have none : (table.remarks.map Event.remark).filterMap Event.turn? = [] := by
    rw [List.filterMap_map]
    exact List.filterMap_eq_nil_iff.mpr fun _ _ => rfl
  rw [turnsTold, withTable, List.filterMap_append, none]
  rfl

theorem quiet_withTable {table : Table} (ids : s.table.board.KeepsIds table.board) :
    s.Quiet (s.withTable table) :=
  ⟨rfl, s.turnsTold_withTable table, ids, rfl, rfl⟩

theorem quiet_stop (s : Session) : s.Quiet s.stop.1 := by
  have halted : s.Quiet { s with engine := s.engine.stop } := ⟨rfl, rfl, .refl _, rfl, rfl⟩
  unfold stop
  split
  · exact .refl s
  · split
    · exact halted
    · exact halted.trans (quiet_remark _ _ _ _)

theorem quiet_notify (s : Session) (notice : Notice) {event : Event} (line : Level × String)
    (silent : event.turn? = none) : s.Quiet (s.notify notice event line).1 := by
  unfold notify
  split
  · exact s.quiet_remark _ _ _
  · dsimp only
    split
    · exact (s.quiet_emit silent).trans (quiet_stop _)
    · exact s.quiet_emit silent

theorem quiet_askStatus (s : Session) (cue : Cue) : s.Quiet (s.askStatus cue).1 := by
  unfold askStatus
  split
  · split
    · exact s.quiet_emit rfl
    · exact .refl s
  · exact .refl s

/-! ### Uses -/

theorem quiet_perform (s : Session) (part : Part) (cue : Cue) (asAttack : Bool) :
    s.Quiet (s.perform part cue asAttack).1 := by
  have stopped : s.Quiet (if cue.stops then s.stop else (s, none)).1 := by
    split
    · exact s.quiet_stop
    · exact .refl s
  unfold perform
  split
  · next halted mishap performed =>
    rw [performed] at stopped
    exact stopped
  · next halted performed =>
    rw [performed] at stopped
    have asked := halted.quiet_askStatus cue
    split
    · next told mishap answered =>
      rw [answered] at asked
      exact stopped.trans asked
    · next told answered =>
      rw [answered] at asked
      exact stopped.trans asked

theorem quiet_playCue (s : Session) (part : Part) (key : Option String) (asAttack : Bool) :
    s.Quiet (s.playCue part key asAttack).1 := by
  unfold playCue
  dsimp only
  split
  · exact s.quiet_perform part _ asAttack
  · exact .refl s

theorem quiet_playPart (s : Session) (part : Part) (subject : TokenRef) (key : Option String) :
    s.Quiet (s.playPart part subject key).1 :=
  (s.quiet_emit rfl).trans (quiet_playCue _ part key false)

theorem quiet_playWorkflow (s : Session) (subject : TokenRef) (item : Item)
    (targets : List TokenRef) (consume asAttack : Bool) :
    s.Quiet (s.playWorkflow subject item targets consume asAttack).1 :=
  (s.quiet_emit rfl).trans (quiet_playCue _ .workflow (some item.id) asAttack)

theorem quiet_playAttack (s : Session) (subject : TokenRef) (payload : AttackPayload) :
    s.Quiet (s.playAttack subject payload).1 := by
  unfold playAttack
  split
  · exact .refl s
  · split
    · exact s.quiet_playWorkflow subject _ _ _ _
    · exact quiet_withTable (s.table.keepsIds_resolveAttack subject _ payload)

theorem quiet_playItem (s : Session) (subject : TokenRef) (payload : ItemPayload) :
    s.Quiet (s.playItem subject payload).1 := by
  unfold playItem
  split
  · exact .refl s
  · split
    · exact s.quiet_playWorkflow subject _ _ _ _
    · exact quiet_withTable (s.table.keepsIds_resolveItem subject _)

theorem quiet_step (s : Session) (id : String) (square : Position) :
    s.Quiet { s with table := s.table.step id square } :=
  ⟨rfl, rfl, s.table.board.keepsIds_move id square, rfl, rfl⟩

theorem quiet_walkOn (s : Session) (mover : TokenRef) (goal : Position) (unpaced : Bool)
    (ahead : List Position) : s.Quiet (s.walkOn mover goal unpaced ahead).1 := by
  cases ahead with
  | nil => exact quiet_withTable (.refl _)
  | cons square ahead =>
    have stepped := s.quiet_step (s.token mover).id square
    simp only [walkOn]
    split
    · exact stepped
    · split <;> exact stepped

theorem quiet_playMovement (s : Session) (subject : TokenRef) (payload : MovementPayload)
    (unpaced : Bool) : s.Quiet (s.playMovement subject payload unpaced).1 := by
  unfold playMovement
  split
  · exact .refl s
  · split
    · exact s.quiet_walkOn subject _ unpaced _
    · exact (s.quiet_step _ _).trans (quiet_walkOn _ subject _ unpaced [])

theorem quiet_resume (s : Session) (rested unpaced : Bool) (call : Call) :
    s.Quiet (s.resume rested unpaced call).1 := by
  cases call with
  | walk mover here ahead goal =>
    simp only [resume]
    split
    · exact s.quiet_walkOn mover goal unpaced ahead
    · exact .refl s
  | cued part cue asAttack => exact s.quiet_perform part cue asAttack

theorem quiet_dispatch (s : Session) (subject : TokenRef) (action : Action) (unpaced : Bool) :
    s.Quiet (s.dispatch subject action unpaced).1 := by
  refine dispatchBy_induction (motive := fun use => s.Quiet use.1) action (fun _ _ => .refl s)
    (fun payload => ?_) (fun payload => ?_) fun payload => ?_
  · split
    · exact s.quiet_playPart .movement subject _
    · exact s.quiet_playMovement subject payload unpaced
  · split
    · exact s.quiet_playPart .attack subject _
    · exact s.quiet_playAttack subject payload
  · split
    · exact s.quiet_playPart .item subject _
    · exact s.quiet_playItem subject payload

/-! ### Runs -/

theorem quiet_judge (s : Session) (subject : TokenRef) (ledger : Ledger) (action : Action) :
    s.Quiet (s.judge subject ledger action).1 := by
  have asked : s.Quiet (s.askRange subject action).1 := by
    unfold askRange
    split
    · exact .refl s
    · exact .refl s
    · exact s.quiet_emit rfl
    · exact s.quiet_emit rfl
  unfold judge
  dsimp only
  split
  · exact asked
  · exact .refl s

theorem quiet_noticed {taken : Session × Option Mishap} (quiet : s.Quiet taken.1) :
    s.Quiet (noticed taken).1 := by
  rcases taken with ⟨next, none | mishap⟩ <;> exact quiet

theorem quiet_used {name : String} {use : Session × Progress} (quiet : s.Quiet use.1) :
    s.Quiet (used name use).1 := by
  rcases use with ⟨next, result | call⟩ <;> exact quiet

theorem quiet_respond (s : Session) (ref : RunRef) (subject : TokenRef) (run : Run) :
    s.Quiet (s.respond ref subject run).1 := by
  unfold respond
  cases run.stage with
  | asking action rest => exact s.quiet_judge subject run.ledger action
  | skipping action rest => exact quiet_noticed (s.quiet_notify _ _ rfl)
  | acting action rest | branching action rest =>
    exact quiet_used (s.quiet_dispatch subject action run.unpaced)
  | pacing action outcome rest | settling rest => exact .refl s
  | reporting => exact quiet_noticed (s.quiet_notify _ _ rfl)
  | failing mishap =>
    exact quiet_noticed ((s.quiet_remark _ _ _).trans (quiet_notify _ _ _ rfl))
  | ended how => exact .refl s

theorem quiet_respondHeld (s : Session) (ref : RunRef) (rested : Bool) (hold : Hold) :
    s.Quiet (s.respondHeld ref rested hold).1 := by
  cases hold with
  | pause => exact .refl s
  | call call => exact quiet_used (s.quiet_resume rested (s.unpaced ref) call)

theorem quiet_deliver (ref : RunRef) {answer : Session × Response} (quiet : s.Quiet answer.1) :
    s.Quiet (deliver ref answer).1 := by
  rcases answer with ⟨next, reply | hold | _⟩
  · exact quiet.trans ⟨rfl, rfl, .refl _, rfl, rfl⟩
  · exact quiet
  · exact quiet

theorem quiet_drive (ref : RunRef) (rank : Nat) (s : Session) : s.Quiet (drive ref rank s).1 := by
  induction rank generalizing s with
  | zero => exact .refl s
  | succ rank inductionHypothesis =>
    unfold drive
    split
    · exact .refl s
    · next subject run _ =>
      have answered := quiet_deliver ref (s.quiet_respond ref subject run)
      rw [← answer_eq] at answered
      split
      · next told hold found =>
        rw [found] at answered
        exact answered
      · next told found =>
        rw [found] at answered
        exact answered.trans (inductionHypothesis told)

theorem quiet_follow (s : Session) (ref : RunRef) : s.Quiet (s.follow ref).1 :=
  quiet_drive ref _ s

/-- A run that is taken up has nothing to do with any combat. -/
theorem quiet_takeUp (s : Session) (ref : RunRef) (rested : Bool) (hold : Hold) :
    s.Quiet (s.takeUp ref rested hold).1 := by
  rw [takeUp_eq]
  have told := quiet_deliver ref (s.quiet_respondHeld ref rested hold)
  split
  · next next hold found =>
    rw [found] at told
    exact told
  · next next found =>
    rw [found] at told
    exact told.trans (next.quiet_follow ref)

theorem quiet_submit {subject : TokenRef} {script : List Action}
    (submitted : s.submit subject script = some (ref, next)) : s.Quiet next := by
  unfold submit at submitted
  split at submitted
  · cases submitted
  · obtain ⟨⟨_, engine⟩, -, same⟩ := Option.map_eq_some_iff.mp submitted
    obtain ⟨-, rfl⟩ := Prod.mk.inj same
    have begun : s.Quiet { s with engine } := ⟨rfl, rfl, .refl _, rfl, rfl⟩
    exact begun.trans (quiet_remark _ _ _ _)

/-! ### Listeners -/

theorem quiet_reportStore (s : Session) (subject : Token) (error : StoreError) :
    s.Quiet (s.reportStore subject error).1 := by
  have told : s.Quiet (s.notifyError subject error.message).1 := s.quiet_notify _ _ rfl
  unfold reportStore
  split
  · split
    · next next notified => rw [notified] at told; exact told
    · next next mishap notified => rw [notified] at told; exact told
  · exact .refl s

theorem quiet_scriptOfTurn (s : Session) (subject : TokenRef) (isNew : Bool) :
    s.Quiet (s.scriptOfTurn subject isNew).1 := by
  have filed {archive : Archive} (rows : archive.rows = s.archive.rows) :
      s.Quiet { s with archive } := ⟨rfl, rfl, .refl _, rows, rfl⟩
  have asked := s.archive.rows_isEnabled (s.token subject).id
  unfold scriptOfTurn scriptOf
  split
  · split
    · next found =>
      rw [found] at asked
      exact (filed asked).trans (quiet_reportStore _ _ _)
    · next found =>
      rw [found] at asked
      exact filed asked
    · next archive found =>
      rw [found] at asked
      have sorted := (archive.rows_sortedQueue (s.token subject).id).trans asked
      split
      · next stored =>
        rw [stored] at sorted
        exact (filed sorted).trans (quiet_reportStore _ _ _)
      · next stored =>
        rw [stored] at sorted
        exact filed sorted
  · exact .refl s

theorem quiet_hearRun {standing : Session × Standing} (quiet : s.Quiet standing.1) :
    s.Quiet (hearRun ref standing).1 := by
  obtain ⟨next, (mishap | summary) | hold⟩ := standing
  · exact quiet
  · exact quiet.trans (next.quiet_emit rfl)
  · exact quiet

/-- What a listener does about a turn has nothing to do with any combat. -/
theorem quiet_hearTurn (s : Session) (token : TokenRef) : s.Quiet (s.hearTurn token).1 := by
  have loaded := s.quiet_scriptOfTurn token true
  unfold hearTurn
  split
  · next next failure found =>
    rw [found] at loaded
    exact loaded
  · next next found =>
    rw [found] at loaded
    exact loaded.trans (next.quiet_emit rfl)
  · next next script found =>
    rw [found] at loaded
    split
    · exact loaded.trans (next.quiet_emit rfl)
    · next run begun submitted =>
      exact loaded.trans ((quiet_submit submitted).trans (quiet_hearRun (begun.quiet_follow run)))

end Session
end TurnScript
