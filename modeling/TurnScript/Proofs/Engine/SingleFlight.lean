import TurnScript.Proofs.Engine.Account

/-!
# One run at a time

The guard of an engine is written at three places: as a run begins, as one ends, and by an
emergency stop. A stopped run goes on while the guard is already held by a newer one, so what
keeps the guard right is a statement about all runs together: the one that holds it is unstopped
and unfinished, and every other unfinished run has been stopped.

The law holds after every history, whatever the runs are told and however they end.
-/

namespace TurnScript

namespace Run

variable {r next : Run} {active : Bool} {news : News}

/-- A run that has just begun is neither stopped nor over. -/
theorem begin_fresh (script : List Action) :
    (begin script).stopped = false ∧ (begin script).unpaced = false ∧
      (begin script).isOver = false := by
  rcases begin_cases script with ⟨action, ahead, _, begun⟩ | ⟨_, begun⟩
  · rw [begun]
    exact ⟨rfl, rfl, rfl⟩
  · rw [begun]
    exact ⟨rfl, rfl, rfl⟩

/-- Only a run that is not over waits for news. -/
theorem Moves.unfinished (moves : r.Moves active news next) : r.isOver = false := by
  have positive : 0 < r.rank := Nat.lt_of_le_of_lt (Nat.zero_le _) moves.rank_lt
  cases standing : r.stage <;> simp_all [isOver, rank]

/-- A condition is asked only by a run that may go on. -/
theorem Moves.asks_active (moves : r.Moves active news next) (asks : next.isAsking = true) :
    active = true := by
  cases moves with
  | @passBy _ rest | @goOn _ _ rest | @comeBack rest =>
    rcases r.walk_cases active rest with ⟨_, _, _, going, _⟩ | ⟨_, walked⟩
    · exact going
    · rw [walked] at asks
      cases stopped : r.stopped <;> simp [close, isAsking, stopped] at asks
  | _ => simp [isAsking] at asks

end Run

namespace Engine

variable {σ : Type} {e : Engine σ} {ref : RunRef} {r : Run}

/-- What the guard of an engine says about its runs. -/
structure Guarded (e : Engine σ) : Prop where
  held_iff : e.executing = true ↔ e.active ≠ none
  /-- The run that holds the guard is known, not stopped, not called off and not over. -/
  owner : ∀ ref, e.active = some ref → ∃ run, e.run? ref = some run ∧
    run.stopped = false ∧ run.unpaced = false ∧ run.isOver = false
  /-- Every other run that is not over has been stopped, and its pauses are called off. -/
  others : ∀ ref run, e.run? ref = some run → run.isOver = false → e.active ≠ some ref →
    run.stopped = true ∧ run.unpaced = true

/-- A guarded engine at which no stopped run asks a condition. -/
structure Sound (e : Engine σ) : Prop extends Guarded e where
  asks : ∀ ref run, e.run? ref = some run → run.isAsking = true → run.stopped = false

theorem isActive_iff (e : Engine σ) (ref : RunRef) : e.isActive ref = true ↔
    e.executing = true ∧ e.active = some ref ∧ ∃ run, e.run? ref = some run ∧
      run.stopped = false := by
  cases known : e.run? ref <;> simp [isActive, known, and_assoc]

/-- In a calm engine no run waits for a verdict. -/
theorem not_asking_of_isCalm (calm : e.isCalm = true) (known : e.run? ref = some r) :
    r.isAsking = false := by
  obtain ⟨subject, found⟩ := exists_entry known
  have quiet := List.all_eq_true.mp calm ⟨subject, r⟩ (List.mem_of_getElem? found)
  simpa using quiet

/-- News free the guard if they end the run that holds it, and leave it alone otherwise. -/
theorem told_guard (e : Engine σ) (ref : RunRef) (news : News) :
    (e.active = some ref ∧ ((e.effect (.told ref news)).run? ref).any (·.isOver) = true ∧
      (e.effect (.told ref news)).executing = false ∧
      (e.effect (.told ref news)).active = none) ∨
    ((e.active = some ref → ((e.effect (.told ref news)).run? ref).any (·.isOver) = false) ∧
      (e.effect (.told ref news)).executing = e.executing ∧
      (e.effect (.told ref news)).active = e.active) := by
  simp only [effect, tell, run?_release]
  generalize changed : e.change ref _ = between
  have executing : between.executing = e.executing := by rw [← changed]; rfl
  have active : between.active = e.active := by rw [← changed]; rfl
  unfold release
  split
  · next ended =>
    simp only [Bool.and_eq_true, beq_iff_eq, active] at ended
    exact .inl ⟨ended.2, ended.1, rfl, rfl⟩
  · next goes =>
    simp only [Bool.and_eq_true, beq_iff_eq, active, not_and'] at goes
    exact .inr ⟨fun held => Bool.not_eq_true _ ▸ goes held, executing, active⟩

theorem sound_empty : ({} : Engine σ).Sound where
  held_iff := by simp
  owner := by simp
  others := by simp [run?]
  asks := by simp [run?]

theorem Sound.arrived (sound : e.Sound) (subject : σ) (script : List Action) :
    (e.effect (.arrived subject script)).Sound := by
  cases free : e.executing with
  | true => rw [effect_arrived_of_executing e subject script free]; exact sound
  | false =>
    have vacant : e.active = none := by
      have unheld := mt sound.held_iff.mpr (by simp [free])
      simpa using unheld
    have executing : (e.effect (.arrived subject script)).executing = true := by
      simp [effect, submit, free]
    have active : (e.effect (.arrived subject script)).active = some e.entries.length := by
      simp [effect, submit, free]
    obtain ⟨unstopped, paced, unfinished⟩ := Run.begin_fresh script
    refine ⟨⟨by simp [executing, active], ?_, ?_⟩, ?_⟩
    · intro ref held
      rw [active, Option.some.injEq] at held
      refine ⟨Run.begin script, ?_, unstopped, paced, unfinished⟩
      rw [run?_arrived e subject script ref free, if_pos held.symm]
    · intro ref run known unfinished elsewhere
      have old : ref ≠ e.entries.length := fun fresh => elsewhere (by rw [active, fresh])
      rw [run?_arrived e subject script ref free, if_neg old] at known
      exact sound.others ref run known unfinished (by simp [vacant])
    · intro ref run known asks
      rw [run?_arrived e subject script ref free] at known
      split at known
      · rw [← Option.some.inj known]
        exact unstopped
      · exact sound.asks ref run known asks

theorem Sound.stopped (sound : e.Sound) (calm : e.isCalm = true) :
    (e.effect .stopped).Sound := by
  have executing : (e.effect .stopped).executing = false := rfl
  have active : (e.effect .stopped).active = none := rfl
  refine ⟨⟨by simp [executing, active], by simp [active], ?_⟩, ?_⟩
  · intro ref run known unfinished _
    rw [run?_stopped] at known
    split at known
    · obtain ⟨before, _, rfl⟩ := Option.map_eq_some_iff.mp known
      exact ⟨rfl, rfl⟩
    · next elsewhere => exact sound.others ref run known unfinished elsewhere
  · intro ref run known asks
    rw [run?_stopped] at known
    split at known
    · obtain ⟨before, knownBefore, rfl⟩ := Option.map_eq_some_iff.mp known
      have quiet : before.isAsking = false := not_asking_of_isCalm calm knownBefore
      exact absurd asks (by simpa [Run.isAsking, Run.halted] using quiet)
    · exact sound.asks ref run known asks

/-- The run that holds the guard after some news is still known, unstopped and unfinished. -/
theorem Sound.told_owner {news : News} {other : RunRef} (sound : e.Sound)
    (permitted : e.permits (.told ref news))
    (held : (e.effect (.told ref news)).active = some other) :
    ∃ run, (e.effect (.told ref news)).run? other = some run ∧
      run.stopped = false ∧ run.unpaced = false ∧ run.isOver = false := by
  obtain ⟨r, next, known, knownNext, moves⟩ := moves_of_permits permitted
  obtain ⟨_, stoppedKept, pacedKept⟩ := moves.keeps
  rcases e.told_guard ref news with ⟨_, _, _, active⟩ | ⟨goes, _, active⟩
  · rw [active] at held
    cases held
  · rw [active] at held
    by_cases same : other = ref
    · subst same
      obtain ⟨run, knownRun, unstopped, paced, _⟩ := sound.owner other held
      rw [known, Option.some.injEq] at knownRun
      subst knownRun
      refine ⟨next, knownNext, stoppedKept.trans unstopped, pacedKept.trans paced, ?_⟩
      simpa [knownNext] using goes held
    · rw [e.run?_told_ne news same]
      exact sound.owner other held

/-- Every other run that is not over after some news has been stopped. -/
theorem Sound.told_others {news : News} {other : RunRef} {run : Run} (sound : e.Sound)
    (permitted : e.permits (.told ref news))
    (knownRun : (e.effect (.told ref news)).run? other = some run)
    (unfinished : run.isOver = false)
    (elsewhere : (e.effect (.told ref news)).active ≠ some other) :
    run.stopped = true ∧ run.unpaced = true := by
  obtain ⟨r, next, known, knownNext, moves⟩ := moves_of_permits permitted
  obtain ⟨_, stoppedKept, pacedKept⟩ := moves.keeps
  by_cases same : other = ref
  · subst same
    rw [knownNext, Option.some.injEq] at knownRun
    subst knownRun
    rcases e.told_guard other news with ⟨_, ended, _, _⟩ | ⟨_, _, active⟩
    · simp [knownNext, unfinished] at ended
    · rw [active] at elsewhere
      obtain ⟨stopped, unpaced⟩ := sound.others other r known moves.unfinished elsewhere
      exact ⟨stoppedKept.trans stopped, pacedKept.trans unpaced⟩
  · rw [e.run?_told_ne news same] at knownRun
    -- News for another run can only have freed a guard that this run does not hold.
    have elsewhereBefore : e.active ≠ some other := by
      rcases e.told_guard ref news with ⟨held, _, _, _⟩ | ⟨_, _, active⟩
      · rw [held]
        simpa using Ne.symm same
      · rw [← active]
        exact elsewhere
    exact sound.others other run knownRun unfinished elsewhereBefore

/-- No stopped run asks a condition after some news. -/
theorem Sound.told_asks {news : News} {other : RunRef} {run : Run} (sound : e.Sound)
    (permitted : e.permits (.told ref news))
    (knownRun : (e.effect (.told ref news)).run? other = some run)
    (asks : run.isAsking = true) : run.stopped = false := by
  obtain ⟨r, next, known, knownNext, moves⟩ := moves_of_permits permitted
  obtain ⟨_, stoppedKept, _⟩ := moves.keeps
  by_cases same : other = ref
  · subst same
    rw [knownNext, Option.some.injEq] at knownRun
    subst knownRun
    obtain ⟨_, _, run, knownRun, unstopped⟩ := (isActive_iff e other).mp (moves.asks_active asks)
    rw [known, Option.some.injEq] at knownRun
    subst knownRun
    exact stoppedKept.trans unstopped
  · rw [e.run?_told_ne news same] at knownRun
    exact sound.asks other run knownRun asks

theorem Sound.told {news : News} (sound : e.Sound) (permitted : e.permits (.told ref news)) :
    (e.effect (.told ref news)).Sound := by
  have held_iff : (e.effect (.told ref news)).executing = true ↔
      (e.effect (.told ref news)).active ≠ none := by
    rcases e.told_guard ref news with ⟨_, _, executing, active⟩ | ⟨_, executing, active⟩
    · simp [executing, active]
    · rw [executing, active]
      exact sound.held_iff
  refine ⟨⟨held_iff, ?_, ?_⟩, ?_⟩
  · intro other held
    exact sound.told_owner permitted held
  · intro other run known unfinished elsewhere
    exact sound.told_others permitted known unfinished elsewhere
  · intro other run known asks
    exact sound.told_asks permitted known asks

/-- Whatever can happen keeps an engine sound. -/
theorem Sound.effect {happening : Happening σ} (sound : e.Sound)
    (permitted : e.permits happening) : (e.effect happening).Sound := by
  cases happening with
  | arrived subject script => exact sound.arrived subject script
  | stopped => exact sound.stopped permitted
  | queried => exact sound
  | told ref news => exact sound.told permitted

/-- A sound engine is sound after every history. -/
theorem Sound.after {history : List (Happening σ)} (sound : e.Sound)
    (allowed : e.allows history) : (e.after history).Sound :=
  after_induction sound (fun _ _ sound permitted => sound.effect permitted) allowed

/-- A run of a sound engine that is neither over nor stopped may go on. -/
theorem Sound.isActive (sound : e.Sound) (known : e.run? ref = some r)
    (unfinished : r.isOver = false) (unstopped : r.stopped = false) : e.isActive ref = true := by
  have held : e.active = some ref := by
    apply Decidable.byContradiction
    intro elsewhere
    have stopped := (sound.others ref r known unfinished elsewhere).1
    rw [unstopped] at stopped
    cases stopped
  exact (isActive_iff e ref).mpr
    ⟨sound.held_iff.mpr (by simp [held]), held, r, known, unstopped⟩

/-- In a sound engine a run that is not over may go on exactly if it has not been stopped. -/
theorem Sound.isActive_eq (sound : e.Sound) (known : e.run? ref = some r)
    (unfinished : r.isOver = false) : e.isActive ref = !r.stopped := by
  cases stopped : r.stopped with
  | false => exact sound.isActive known unfinished stopped
  | true => simp [Engine.isActive, known, stopped]

/-- What holds of a known run, together with the news that it has had and with its deeds, holds of
it after every history if a stop and every piece of news preserve it. -/
theorem Sound.deed_induction {motive : List News → List Deed → Run → Prop}
    {history : List (Happening σ)} (sound : e.Sound) (known : e.run? ref = some r)
    (news : List News) (deeds : List Deed) (start : motive news deeds r)
    (halted : ∀ news deeds r, motive news deeds r → motive news deeds r.halted)
    (moved : ∀ news deeds r latest next, motive news deeds r → r.Moves (!r.stopped) latest next →
      motive (news ++ [latest]) (deeds ++ next.deed?.toList) next)
    (allowed : e.allows history = true) :
    ∃ next, (e.after history).run? ref = some next ∧
      motive (news ++ newsFor ref history) (deeds ++ deedsBy ref (e.deeds history)) next := by
  induction history generalizing e r news deeds with
  | nil => exact ⟨r, known, by simpa [newsFor, Engine.deeds, deedsBy] using start⟩
  | cons happening rest inductionHypothesis =>
    obtain ⟨permitted, allowedRest⟩ := (allows_cons e happening rest).mp allowed
    obtain ⟨middle, knownMiddle, befallen⟩ := befalls known permitted
    have reached : motive (news ++ newsFor ref [happening])
        (deeds ++ deedsBy ref (e.deed? happening).toList) middle := by
      cases befallen with
      | spared untold =>
        rw [newsFor_untold untold, deedsBy_untold known untold, List.append_nil, List.append_nil]
        exact start
      | halted =>
        rw [newsFor_untold (by simp), deedsBy_untold known (by simp), List.append_nil,
          List.append_nil]
        exact halted news deeds r start
      | @moved latest _ moves =>
        have going : e.isActive ref = !r.stopped := sound.isActive_eq known moves.unfinished
        rw [newsFor_told, deedsBy_told knownMiddle]
        exact moved news deeds r latest middle start (going ▸ moves)
    have after := inductionHypothesis (sound.effect permitted) knownMiddle _ _ reached allowedRest
    rw [List.append_assoc, ← newsFor_cons, List.append_assoc, ← deedsBy_append] at after
    exact after

/-- What holds of a known run, together with the news that it has had, holds of it after every
history if a stop and every piece of news preserve it. -/
theorem Sound.run_induction {motive : List News → Run → Prop} {history : List (Happening σ)}
    (sound : e.Sound) (known : e.run? ref = some r) (news : List News) (start : motive news r)
    (halted : ∀ news r, motive news r → motive news r.halted)
    (moved : ∀ news r latest next, motive news r → r.Moves (!r.stopped) latest next →
      motive (news ++ [latest]) next)
    (allowed : e.allows history = true) :
    ∃ next, (e.after history).run? ref = some next ∧
      motive (news ++ newsFor ref history) next :=
  sound.deed_induction (motive := fun news _ r => motive news r) known news [] start
    (fun news _ r => halted news r) (fun news _ r latest next => moved news r latest next) allowed

/-- Every state that an engine can come to is sound. -/
theorem Reached.sound (reached : e.Reached) : e.Sound := by
  obtain ⟨history, allowed, rfl⟩ := reached
  exact sound_empty.after allowed

end Engine
end TurnScript
