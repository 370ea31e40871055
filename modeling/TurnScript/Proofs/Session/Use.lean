import TurnScript.Session.Nobody

/-!
# What the playing of actions does to the engine

Whoever plays an action, and whoever takes a notice, can stop the engine. Nothing else of the engine
is in their reach: no run is told anything and none begins. A use that is held has not come to the
point where a stop is possible, and it is held for a reason: its gate is closed, or it is in a
pause that has not been called off.
-/

namespace TurnScript.Session

/-- A session whose engine and host are as they were. -/
structure Keeps (s next : Session) : Prop where
  engine : next.engine = s.engine
  host : next.host = s.host

/-- A session in which at most the engine has been stopped. -/
structure Spares (s next : Session) : Prop where
  engine : next.engine = s.engine ∨ next.engine = s.engine.stop
  host : next.host = s.host

/-- What a held use waits for has not come about; `unpaced` tells whether its pauses have been
called off. -/
def Lacks (s : Session) (unpaced : Bool) : Call → Prop
  | .walk .. => unpaced = false
  | .cued _ cue _ => ∃ gate, cue.gate = some gate ∧ s.opened.contains gate = false

/-- A use spares the session, and if it is held, it keeps it and has something to wait for. -/
structure Uses (s : Session) (unpaced : Bool) (use : Session × Progress) : Prop where
  spares : s.Spares use.1
  held : ∀ call, use.2 = .held call → s.Keeps use.1 ∧ use.1.Lacks unpaced call

variable {s middle next : Session} {unpaced : Bool}

theorem Keeps.refl (s : Session) : s.Keeps s := ⟨rfl, rfl⟩

theorem Keeps.trans (first : s.Keeps middle) (second : middle.Keeps next) : s.Keeps next :=
  ⟨second.engine.trans first.engine, second.host.trans first.host⟩

theorem Keeps.spares (keeps : s.Keeps next) : s.Spares next := ⟨.inl keeps.engine, keeps.host⟩

/-- An engine that has been stopped is not changed by another stop. -/
theorem stop_stop {σ : Type} (e : Engine σ) : e.stop.stop = e.stop := rfl

theorem Spares.trans (first : s.Spares middle) (second : middle.Spares next) : s.Spares next := by
  refine ⟨?_, second.host.trans first.host⟩
  rcases second.engine with same | stopped
  · rw [same]
    exact first.engine
  · rw [stopped]
    rcases first.engine with before | before
    · exact .inr (by rw [before])
    · exact .inr (by rw [before, stop_stop])

/-- What was done before a use that kept the session may be left out of account. -/
theorem Keeps.uses {use : Session × Progress} (keeps : s.Keeps middle)
    (uses : middle.Uses unpaced use) : s.Uses unpaced use where
  spares := keeps.spares.trans uses.spares
  held call isHeld := ⟨keeps.trans (uses.held call isHeld).1, (uses.held call isHeld).2⟩

/-- A use that is done is not held. -/
theorem Spares.uses {result : Played} (spares : s.Spares next) :
    s.Uses unpaced (next, .done result) :=
  ⟨spares, fun _ isHeld => by cases isHeld⟩

theorem keeps_emit (s : Session) (event : Event) : s.Keeps (s.emit event) := ⟨rfl, rfl⟩

theorem keeps_remark (s : Session) (source : String) (level : Level) (text : String) :
    s.Keeps (s.remark source level text) := ⟨rfl, rfl⟩

theorem keeps_withTable (s : Session) (table : Table) : s.Keeps (s.withTable table) := ⟨rfl, rfl⟩

theorem keeps_withCombat (s : Session) (ref : CombatRef) (c : Combat) (table : Table) :
    s.Keeps (s.withCombat ref c table) := ⟨rfl, rfl⟩

/-! ## Stops and notices -/

theorem spares_stop (s : Session) : s.Spares s.stop.1 := by
  unfold stop
  split
  · exact (Keeps.refl s).spares
  · split
    · exact ⟨.inr rfl, rfl⟩
    · exact ⟨.inr rfl, rfl⟩

theorem spares_notify (s : Session) (notice : Notice) (event : Event) (line : Level × String) :
    s.Spares (s.notify notice event line).1 := by
  unfold notify
  split
  · exact (s.keeps_remark _ _ _).spares
  · dsimp only
    split
    · exact (s.keeps_emit event).spares.trans (spares_stop _)
    · exact (s.keeps_emit event).spares

theorem keeps_askStatus (s : Session) (cue : Cue) : s.Keeps (s.askStatus cue).1 := by
  unfold askStatus
  split
  · split
    · exact s.keeps_emit _
    · exact .refl s
  · exact .refl s

/-! ## Uses -/

theorem spares_perform (s : Session) (part : Part) (cue : Cue) (asAttack : Bool) :
    s.Spares (s.perform part cue asAttack).1 := by
  have stopped : s.Spares (if cue.stops then s.stop else (s, none)).1 := by
    split
    · exact s.spares_stop
    · exact (Keeps.refl s).spares
  unfold perform
  split
  · next halted mishap performed =>
    rw [performed] at stopped
    exact stopped
  · next halted performed =>
    rw [performed] at stopped
    have asked : halted.Keeps (halted.askStatus cue).1 := halted.keeps_askStatus cue
    split
    · next told mishap answered =>
      rw [answered] at asked
      exact stopped.trans asked.spares
    · next told answered =>
      rw [answered] at asked
      exact stopped.trans asked.spares

theorem uses_playCue (s : Session) (part : Part) (key : Option String) (asAttack : Bool) :
    s.Uses unpaced (s.playCue part key asAttack) := by
  unfold playCue
  dsimp only
  split
  · exact (s.spares_perform part _ asAttack).uses
  · next closed =>
    refine ⟨(Keeps.refl s).spares, fun call isHeld => ⟨.refl s, ?_⟩⟩
    obtain rfl := Progress.held.inj isHeld
    cases gate : (s.host.cue part key).gate with
    | none => simp [gate] at closed
    | some name => exact ⟨name, gate, by simpa [gate] using closed⟩

theorem uses_playPart (s : Session) (part : Part) (subject : TokenRef) (key : Option String) :
    s.Uses unpaced (s.playPart part subject key) :=
  (s.keeps_emit _).uses (uses_playCue _ part key false)

theorem uses_playWorkflow (s : Session) (subject : TokenRef) (item : Item)
    (targets : List TokenRef) (consume asAttack : Bool) :
    s.Uses unpaced (s.playWorkflow subject item targets consume asAttack) :=
  (s.keeps_emit _).uses (uses_playCue _ .workflow (some item.id) asAttack)

theorem uses_resolved (s : Session) (result : Played × Table) :
    s.Uses unpaced (s.resolved result) :=
  (s.keeps_withTable result.2).spares.uses

theorem uses_playAttack (s : Session) (subject : TokenRef) (payload : AttackPayload) :
    s.Uses unpaced (s.playAttack subject payload) := by
  unfold playAttack
  split
  · exact (Keeps.refl s).spares.uses
  · split
    · exact s.uses_playWorkflow subject _ _ _ _
    · exact s.uses_resolved _

theorem uses_playItem (s : Session) (subject : TokenRef) (payload : ItemPayload) :
    s.Uses unpaced (s.playItem subject payload) := by
  unfold playItem
  split
  · exact (Keeps.refl s).spares.uses
  · split
    · exact s.uses_playWorkflow subject _ _ _ _
    · exact s.uses_resolved _

theorem uses_walkOn (s : Session) (mover : TokenRef) (goal : Position) (unpaced : Bool)
    (ahead : List Position) : s.Uses unpaced (s.walkOn mover goal unpaced ahead) := by
  cases ahead with
  | nil => exact (s.keeps_withTable _).spares.uses
  | cons square ahead =>
    have stepped : s.Keeps { s with table := s.table.step (s.token mover).id square } := ⟨rfl, rfl⟩
    simp only [walkOn]
    split
    · exact stepped.spares.uses
    · split
      · exact stepped.spares.uses
      · next paced =>
        refine ⟨stepped.spares, fun call isHeld => ⟨stepped, ?_⟩⟩
        obtain rfl := Progress.held.inj isHeld
        simpa [Lacks] using paced

theorem uses_playMovement (s : Session) (subject : TokenRef) (payload : MovementPayload)
    (unpaced : Bool) : s.Uses unpaced (s.playMovement subject payload unpaced) := by
  unfold playMovement
  split
  · exact (Keeps.refl s).spares.uses
  · next route _ =>
    have stepped : s.Keeps { s with table := s.table.step (s.token subject).id route.goal } :=
      ⟨rfl, rfl⟩
    split
    · exact s.uses_walkOn subject _ unpaced _
    · exact stepped.uses (uses_walkOn _ subject _ unpaced [])

/-- A use that is taken up. -/
theorem uses_resume (s : Session) (rested unpaced : Bool) (call : Call) :
    s.Uses unpaced (s.resume rested unpaced call) := by
  cases call with
  | walk mover here ahead goal =>
    simp only [resume]
    split
    · exact s.uses_walkOn mover goal unpaced ahead
    · exact (Keeps.refl s).spares.uses
  | cued part cue asAttack => exact (s.spares_perform part cue asAttack).uses

theorem uses_playAs {π : Type} {part : Part} {player : Player} {action : Action}
    {read : Fields → Record.Checked π} {play : π → Session × Progress}
    (plays : ∀ payload, s.Uses unpaced (play payload)) :
    s.Uses unpaced (s.playAs part player action read play) := by
  unfold playAs
  split
  · exact (Keeps.refl s).spares.uses
  · split
    · exact (Keeps.refl s).spares.uses
    · exact plays _

theorem uses_dispatchBy {action : Action} {move : MovementPayload → Session × Progress}
    {attack : AttackPayload → Session × Progress} {use : ItemPayload → Session × Progress}
    (moves : ∀ payload, s.Uses unpaced (move payload))
    (attacks : ∀ payload, s.Uses unpaced (attack payload))
    (used : ∀ payload, s.Uses unpaced (use payload)) :
    s.Uses unpaced (s.dispatchBy action move attack use) := by
  unfold dispatchBy
  split
  · exact uses_playAs moves
  all_goals first
    | exact uses_playAs attacks
    | exact uses_playAs used
    | exact (Keeps.refl s).spares.uses

/-- A dispatch, whoever plays the action. -/
theorem uses_dispatch (s : Session) (subject : TokenRef) (action : Action) (unpaced : Bool) :
    s.Uses unpaced (s.dispatch subject action unpaced) := by
  refine uses_dispatchBy (fun payload => ?_) (fun payload => ?_) (fun payload => ?_)
  · split
    · exact s.uses_playPart .movement subject _
    · exact s.uses_playMovement subject payload unpaced
  · split
    · exact s.uses_playPart .attack subject _
    · exact s.uses_playAttack subject payload
  · split
    · exact s.uses_playPart .item subject _
    · exact s.uses_playItem subject payload

/-- A dispatch for nobody. -/
theorem uses_playForNobody {π : Type} (s : Session) (player : Player) (play : π → Played × Table)
    (payload : π) : s.Uses unpaced (s.playForNobody player play payload) := by
  unfold playForNobody
  split
  · exact (Keeps.refl s).spares.uses
  · exact s.uses_resolved _

/-- A use whose pauses have been called off is done as soon as it is taken up. -/
theorem resume_unpaced (s : Session) (rested : Bool) (call : Call) :
    ∃ result, (s.resume rested true call).2 = .done result := by
  cases call with
  | cued part cue asAttack => exact ⟨_, rfl⟩
  | walk mover here ahead goal =>
    cases rested with
    | false => exact ⟨_, rfl⟩
    | true =>
      cases ahead with
      | nil => exact ⟨_, rfl⟩
      | cons square ahead =>
        simp only [resume, walkOn, if_true]
        split
        · exact ⟨_, rfl⟩
        · exact ⟨_, rfl⟩

end TurnScript.Session
