import TurnScript.Proofs.Engine.Interpreter

/-!
# Emergency stops

A stop does not end a run: it goes on to where it next looks whether it may go on. Till then it
does nothing that others can see. A dispatch that is under way comes to its outcome, which is
recorded as ever, and after at most one more pause the run is over.

A run winds up in this way from every stage at which a stop can find it inside its loop. A run
that is about to report, or to tell of a failure, has left the loop by then.
-/

namespace TurnScript

namespace Run

/-- How many more news a run takes that has been stopped inside its loop. A run that asks a
condition, reports or tells of a failure is not one. -/
def windings? (r : Run) : Option Nat :=
  match r.stage with
  | .acting .. | .branching .. => some 2
  | .skipping .. | .pacing .. | .settling _ => some 1
  | .ended (.finished true) => some 0
  | _ => none

/-- Whether a run is inside its loop at a stage at which a stop can find it. -/
def isInLoop (r : Run) : Bool :=
  match r.stage with
  | .skipping .. | .acting .. | .pacing .. | .branching .. | .settling _ => true
  | _ => false

variable {r next : Run} {news : News}

theorem exists_windings? (inside : r.isInLoop = true) : ∃ left, r.windings? = some left := by
  cases standing : r.stage <;> simp [isInLoop, standing] at inside <;> simp [windings?, standing]

/-- A run that was stopped inside its loop takes one news less with each that it has had, and does
nothing that can be seen. -/
theorem Moves.winds {left : Nat} (moves : r.Moves (!r.stopped) news next)
    (stopped : r.stopped = true) (winding : r.windings? = some left)
    (noticed : ∀ mishap, news ≠ .failed mishap) (timed : news ≠ .overran) :
    ∃ fewer, next.windings? = some fewer ∧ fewer + 1 = left ∧ next.deed? = none := by
  rw [stopped, Bool.not_true] at moves
  cases moves with
  | accept standing | decline standing | finish standing | giveUp standing =>
    simp [windings?, standing] at winding
  | score _ standing | scoreAside _ standing =>
    simp [windings?, standing] at winding
    exact ⟨1, rfl, winding, rfl⟩
  | turnAside _ going => cases going
  | passBy standing | goOn standing | comeBack standing =>
    simp [windings?, standing] at winding
    rw [walk_false]
    exact ⟨0, by simp [windings?, close, stopped], winding, by simp [deed?, close, stopped]⟩
  | collapse mishap | stumble mishap => exact absurd rfl (noticed mishap)
  | overrun => exact absurd rfl timed

theorem windings?_le {left : Nat} (winding : r.windings? = some left) : left ≤ 2 := by
  unfold windings? at winding
  split at winding <;> simp at winding <;> omega

theorem stage_of_wound_up (winding : r.windings? = some 0) : r.stage = .ended (.finished true) := by
  unfold windings? at winding
  split at winding <;> simp_all

/-- A run that winds up and is over has ended as a stopped one. -/
theorem stage_of_windings? {left : Nat} (winding : r.windings? = some left)
    (finished : r.isOver = true) : r.stage = .ended (.finished true) := by
  cases standing : r.stage with
  | ended how =>
    cases how with
    | raised mishap => simp [windings?, standing] at winding
    | finished stopped => cases stopped <;> simp [windings?, standing] at winding ⊢
  | _ => simp [isOver, standing] at finished

end Run

namespace Engine

variable {σ : Type} {e : Engine σ} {ref : RunRef} {r : Run} {history : List (Happening σ)}

/-- A run that has been stopped inside its loop does nothing more that can be seen, whatever
happens. -/
theorem Sound.winds_after {left : Nat} (sound : e.Sound) (known : e.run? ref = some r)
    (stopped : r.stopped = true) (winding : r.windings? = some left)
    (allowed : e.allows history = true)
    (noticed : ∀ mishap, .failed mishap ∉ newsFor ref history)
    (timed : .overran ∉ newsFor ref history) :
    ∃ next fewer, (e.after history).run? ref = some next ∧ next.stopped = true ∧
      next.windings? = some fewer ∧ (newsFor ref history).length + fewer = left ∧
      ∀ deed, (ref, deed) ∉ e.deeds history := by
  induction history generalizing e r left with
  | nil => exact ⟨r, left, known, stopped, winding, by simp [newsFor], by simp [deeds]⟩
  | cons happening rest inductionHypothesis =>
    obtain ⟨permitted, allowedRest⟩ := (allows_cons e happening rest).mp allowed
    obtain ⟨middle, knownMiddle, befallen⟩ := befalls known permitted
    rw [newsFor_cons] at noticed timed
    have noticedRest : ∀ mishap, .failed mishap ∉ newsFor ref rest :=
      fun mishap failed => noticed mishap (List.mem_append_right _ failed)
    have timedRest : .overran ∉ newsFor ref rest :=
      fun overran => timed (List.mem_append_right _ overran)
    obtain ⟨here, stoppedHere, windingHere, counted, unseen⟩ :
        ∃ here, middle.stopped = true ∧ middle.windings? = some here ∧
          (newsFor ref [happening]).length + here = left ∧
          ∀ deed, e.deed? happening ≠ some (ref, deed) := by
      cases befallen with
      | spared untold =>
        exact ⟨left, stopped, winding, by simp [newsFor_untold untold], deed?_untold known untold⟩
      | halted =>
        exact ⟨left, rfl, winding, by simp [newsFor_untold], by simp [deed?]⟩
      | @moved latest _ moves =>
        rw [sound.isActive_eq known moves.unfinished] at moves
        rw [newsFor_told] at noticed timed ⊢
        obtain ⟨fewer, windingNext, counted, unseen⟩ := moves.winds stopped winding
          (fun mishap failed => noticed mishap (by simp [failed]))
          (fun overran => timed (by simp [overran]))
        refine ⟨fewer, moves.keeps.2.1.trans stopped, windingNext, by simp; omega, ?_⟩
        simp [deed?, knownMiddle, unseen]
    obtain ⟨next, fewer, knownNext, stoppedNext, windingNext, countedRest, unseenRest⟩ :=
      inductionHypothesis (sound.effect permitted) knownMiddle stoppedHere windingHere allowedRest
        noticedRest timedRest
    refine ⟨next, fewer, knownNext, stoppedNext, windingNext, ?_, ?_⟩
    · rw [newsFor_cons, List.length_append]
      omega
    · intro deed member
      rcases List.mem_append.mp member with now | later
      · exact unseen deed (by simpa using now)
      · exact unseenRest deed later

/-- How a run goes on from a state in which it has been stopped: it asks no condition, begins no
dispatch, skips nothing and reports nothing. The dispatch that was under way still comes to its
outcome, which is recorded and counted. The run takes at most two more news, for which it waits,
and is then over as a stopped one. -/
structure WindsUp (e : Engine σ) (ref : RunRef) (r : Run) (later : List (Happening σ))
    (next : Run) : Prop where
  known : (e.after later).run? ref = some next
  stopped : next.stopped = true
  unseen : ∀ deed, (ref, deed) ∉ e.deeds later
  ledger : next.ledger = r.ledger.recordAll (playsOf (newsFor ref later))
  executed : next.executed = r.executed + (playsOf (newsFor ref later)).length
  concluded : r.played?.toList = (playsOf (newsFor ref later)).map (·.1) ++ next.played?.toList
  few : (newsFor ref later).length ≤ 2
  ends : next.isOver = true → next.stage = .ended (.finished true)
  waits : next.isOver = false → ∃ news, next.awaits news = true

/-- A run that was stopped inside its loop winds up. -/
theorem Sound.windsUp {left : Nat} (sound : e.Sound) (known : e.run? ref = some r)
    (stopped : r.stopped = true) (winding : r.windings? = some left)
    (allowed : e.allows history = true)
    (noticed : ∀ mishap, .failed mishap ∉ newsFor ref history)
    (timed : .overran ∉ newsFor ref history) : ∃ next, e.WindsUp ref r history next := by
  obtain ⟨next, fewer, knownNext, stoppedNext, windingNext, counted, unseen⟩ :=
    sound.winds_after known stopped winding allowed noticed timed
  obtain ⟨_, sameLed, leads⟩ := leads_after known allowed
  obtain rfl := Option.some.inj (knownNext.symm.trans sameLed)
  have idle : begunBy ref (e.deeds history) = [] := by
    apply List.filterMap_eq_nil_iff.mpr
    intro seen member
    have other : seen.1 ≠ ref := by
      rintro rfl
      exact unseen seen.2 member
    simp [other]
  refine ⟨next, knownNext, stoppedNext, unseen, leads.ledger, leads.executed, ?_, ?_, ?_,
    Run.exists_awaits⟩
  · have begun := leads.begun
    rw [idle, List.append_nil] at begun
    exact begun
  · have most : left ≤ 2 := Run.windings?_le winding
    omega
  · exact Run.stage_of_windings? windingNext

/-- A stop that finds a run inside its loop makes it wind up, and the account that the run has in
the end is that of all the dispatches that it ever began. -/
theorem winds_up_after_stop {before later : List (Happening σ)}
    (allowed : ({} : Engine σ).allows (before ++ .stopped :: later) = true)
    (held : (({} : Engine σ).after before).active = some ref)
    (known : (({} : Engine σ).after before).run? ref = some r) (inside : r.isInLoop = true)
    (noticed : ∀ mishap, .failed mishap ∉ newsFor ref later)
    (timed : .overran ∉ newsFor ref later) :
    ∃ next, ((({} : Engine σ).after before).effect .stopped).WindsUp ref r later next ∧
      Accounts ref (before ++ .stopped :: later) next ∧
      ∀ id, Ordered.get? next.ledger id =
        latest? (playsOf (newsFor ref (before ++ .stopped :: later))) id := by
  obtain ⟨allowedBefore, allowedStop⟩ := (allows_append _ before _).mp allowed
  obtain ⟨permitted, allowedLater⟩ := (allows_cons _ .stopped later).mp allowedStop
  have sound : (({} : Engine σ).after before).Sound := sound_empty.after allowedBefore
  have halted : ((({} : Engine σ).after before).effect .stopped).run? ref = some r.halted := by
    rw [run?_stopped, if_pos held, known]
    rfl
  obtain ⟨left, winding⟩ := Run.exists_windings? inside
  obtain ⟨next, windsUp⟩ :=
    (sound.stopped permitted).windsUp halted rfl winding allowedLater noticed timed
  have whole : (({} : Engine σ).after (before ++ .stopped :: later)).run? ref = some next := by
    rw [after_append, after_cons]
    exact windsUp.known
  have accounts := accounts_after allowed whole
  refine ⟨next, ?_, accounts, ?_⟩
  -- A stop changes neither the ledger nor the count of a run, nor what it plays.
  · exact ⟨windsUp.known, windsUp.stopped, windsUp.unseen, windsUp.ledger, windsUp.executed,
      windsUp.concluded, windsUp.few, windsUp.ends, windsUp.waits⟩
  · intro id
    rw [accounts.ledger]
    exact Ledger.get?_recordAll _ id

end Engine
end TurnScript
