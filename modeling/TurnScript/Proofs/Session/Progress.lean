import TurnScript.Proofs.Session.Performance

/-!
# Runs come to their end

A run that is held can be taken up and be held again, but not for ever. Every reply that it is told
lowers its rank, and a walk that is held again has fewer squares ahead. So the listeners of a turn
come to an end too, one after the other, as long as nobody else takes up the runs that are held. It
does not matter in what state the engine was when the first of them was told.
-/

namespace TurnScript

/-- How often a run that is held can be held again before it is told anything. -/
def Hold.span : Hold → Nat
  | .call (.walk _ _ ahead _) => ahead.length + 1
  | .call (.cued ..) | .pause => 0

namespace Session

variable {s next : Session} {ref : RunRef} {r : Run} {hold again : Hold} {subject : TokenRef}
  {reply : Reply}

/-! ## Responses -/

theorem of_noticed {taken : Session × Option Mishap}
    (responded : noticed taken = (next, .reply reply)) :
    reply = .noted ∨ ∃ mishap, reply = .raised mishap := by
  obtain ⟨told, none | mishap⟩ := taken
  · cases responded
    exact .inl rfl
  · cases responded
    exact .inr ⟨mishap, rfl⟩

theorem noticed_ne_hold (taken : Session × Option Mishap) :
    noticed taken ≠ (next, .hold hold) := by
  obtain ⟨told, none | mishap⟩ := taken <;> rintro ⟨⟩

/-- A reply to a run is news that it waits for. -/
theorem awaits_respond (responded : s.respond ref subject r = (next, .reply reply)) :
    ∃ news, r.awaits news = true ∧ news.reply r.ledger = reply := by
  have notice (awaited : r.awaits .noted = true)
      (told : reply = .noted ∨ ∃ mishap, reply = .raised mishap) :
      ∃ news, r.awaits news = true ∧ news.reply r.ledger = reply := by
    rcases told with rfl | ⟨mishap, rfl⟩
    · exact ⟨.noted, awaited, rfl⟩
    · exact ⟨.failed mishap, awaited, rfl⟩
  unfold respond at responded
  cases standing : r.stage with
  | asking action rest =>
    simp only [standing] at responded
    obtain ⟨-, range, verdict⟩ := s.keeps_judge subject r.ledger action
    cases responded
    refine ⟨.judged action ((s.judge subject r.ledger action).1.token subject) range, ?_, ?_⟩
    · simp [Run.awaits, standing]
    · rw [News.reply, ← verdict]
  | skipping action rest =>
    simp only [standing] at responded
    exact notice (by simp [Run.awaits, standing]) (of_noticed responded)
  | acting action rest | branching action rest =>
    simp only [standing] at responded
    cases used : s.dispatch subject action r.unpaced with
    | mk told progress =>
      rw [used] at responded
      cases progress with
      | held call => cases responded
      | done result =>
        cases responded
        refine ⟨.played action (.ofUse action.name result), ?_, rfl⟩
        simp [Run.awaits, Run.played?, standing]
  | pacing action outcome rest | settling rest =>
    simp only [standing] at responded
    split at responded
    · cases responded
      exact ⟨.overran, by simp [Run.awaits, standing], rfl⟩
    · split at responded
      · cases responded
        exact ⟨.rested, by simp [Run.awaits, standing], rfl⟩
      · cases responded
  | reporting =>
    simp only [standing] at responded
    exact notice (by simp [Run.awaits, standing]) (of_noticed responded)
  | failing mishap =>
    simp only [standing] at responded
    exact notice (by simp [Run.awaits, standing]) (of_noticed responded)
  | ended how =>
    simp only [standing] at responded
    cases responded

/-- A run is held only in what it waits for, and its engine is as it was. -/
theorem fits_respond (responded : s.respond ref subject r = (next, .hold hold)) :
    r.fits hold = true ∧ next.engine = s.engine := by
  unfold respond at responded
  cases standing : r.stage with
  | acting action rest | branching action rest =>
    simp only [standing] at responded
    have uses := s.uses_dispatch subject action r.unpaced
    cases used : s.dispatch subject action r.unpaced with
    | mk told progress =>
      rw [used] at responded uses
      cases progress with
      | done result => cases responded
      | held call =>
        cases responded
        exact ⟨by simp [Run.fits, Run.played?, standing], (uses.held call rfl).1.engine⟩
  | pacing action outcome rest | settling rest =>
    simp only [standing] at responded
    split at responded
    · cases responded
    · split at responded
      · cases responded
      · cases responded
        exact ⟨by simp [Run.fits, standing], rfl⟩
  | asking action rest | ended how =>
    simp only [standing] at responded
    cases responded
  | skipping action rest | reporting | failing mishap =>
    simp only [standing] at responded
    exact absurd responded (noticed_ne_hold _)

/-- A reply that a run waits for lowers its rank, whether it has been stopped meanwhile or not. -/
theorem Spares.rank_tell {news : News} (spares : s.Spares next)
    (known : s.engine.run? ref = some r) (awaited : r.awaits news = true)
    (replied : news.reply r.ledger = reply) :
    ∃ later, (next.tell ref reply).engine.run? ref = some later ∧ later.rank < r.rank := by
  obtain ⟨run, knownNext, same⟩ := spares.known known
  have like : run.awaits news = true ∧ run.ledger = r.ledger ∧ run.rank = r.rank := by
    rcases same with rfl | rfl
    · exact ⟨awaited, rfl, rfl⟩
    · exact ⟨by cases news <;> exact awaited, rfl, rfl⟩
  refine ⟨run.hear (next.engine.isActive ref) news, ?_, ?_⟩
  · rw [engine_tell knownNext (like.2.1 ▸ replied), Engine.run?_told, if_pos rfl, knownNext]
    rfl
  · exact like.2.2 ▸ (Run.moves_of_awaits (next.engine.isActive ref) like.1).rank_lt

/-! ## Holds -/

/-- A run of some rank is held in something that it waits for. -/
def Holds (s : Session) (ref : RunRef) (hold : Hold) (rank : Nat) : Prop :=
  ∃ r, s.engine.run? ref = some r ∧ r.fits hold = true ∧ r.rank = rank

/-- A run that is driven and held is not of a greater rank than before. -/
theorem holds_of_drive {rank : Nat} (known : s.engine.run? ref = some r)
    (held : drive ref rank s = (next, .held hold)) :
    ∃ lower ≤ r.rank, next.Holds ref hold lower := by
  induction rank generalizing s r with
  | zero => cases held
  | succ rank inductionHypothesis =>
    obtain ⟨subject, found⟩ := Engine.exists_entry known
    rw [drive, found] at held
    simp only [answer_eq] at held
    have spares := s.spares_respond ref subject r
    rcases responded : s.respond ref subject r with ⟨told, reply | hold | _⟩
    all_goals rw [responded] at held spares
    · obtain ⟨news, awaited, replied⟩ := awaits_respond responded
      obtain ⟨later, knownLater, less⟩ := spares.rank_tell known awaited replied
      obtain ⟨lower, le, holds⟩ := inductionHypothesis knownLater held
      exact ⟨lower, by omega, holds⟩
    · cases held
      obtain ⟨fits, same⟩ := fits_respond responded
      exact ⟨r.rank, Nat.le_refl _, r, by rw [same, known], fits, rfl⟩
    · obtain ⟨run, knownTold, same⟩ := spares.known known
      have rank : run.rank = r.rank := by rcases same with rfl | rfl <;> rfl
      exact rank ▸ inductionHypothesis knownTold held

theorem holds_of_follow (known : s.engine.run? ref = some r)
    (held : s.follow ref = (next, .held hold)) : ∃ lower ≤ r.rank, next.Holds ref hold lower :=
  holds_of_drive known held

/-- A use that is held again has less left. -/
theorem span_of_resume {rested unpaced : Bool} {call more : Call}
    (held : s.resume rested unpaced call = (next, .held more)) :
    (Hold.call more).span < (Hold.call call).span := by
  cases call with
  | cued part cue asAttack => cases held
  | walk mover here ahead goal =>
    unfold resume at held
    dsimp only at held
    split at held
    · cases ahead with
      | nil => cases held
      | cons square ahead =>
        simp only [walkOn] at held
        split at held
        · cases held
        · split at held
          · cases held
          · cases held
            simp [Hold.span]
    · cases held

/-- A run that is taken up and held again has a lower rank, or less left of the same use. -/
theorem Holds.takeUp {rested : Bool} {rank : Nat} (holds : s.Holds ref hold rank)
    (held : s.takeUp ref rested hold = (next, .held again)) :
    ∃ lower, next.Holds ref again lower ∧
      (lower < rank ∨ lower = rank ∧ again.span < hold.span) := by
  obtain ⟨r, known, fits, rfl⟩ := holds
  -- Whatever the run is told it has waited for, so it is held again with a lower rank.
  have told {told : Session} {news : News} {reply : Reply} (spares : s.Spares told)
      (awaited : r.awaits news = true) (replied : news.reply r.ledger = reply)
      (followed : (told.tell ref reply).follow ref = (next, .held again)) :
      ∃ lower, next.Holds ref again lower ∧
        (lower < r.rank ∨ lower = r.rank ∧ again.span < hold.span) := by
    obtain ⟨later, knownLater, less⟩ := spares.rank_tell known awaited replied
    obtain ⟨lower, le, holds⟩ := holds_of_follow knownLater followed
    exact ⟨lower, holds, .inl (by omega)⟩
  cases hold with
  | pause => exact told (Keeps.refl s).spares (show r.awaits .rested = true from fits) rfl held
  | call call =>
    obtain ⟨action, plays⟩ := Option.isSome_iff_exists.mp fits
    have uses := s.uses_resume rested (s.unpaced ref) call
    unfold takeUp at held
    cases resumed : s.resume rested (s.unpaced ref) call with
    | mk later progress =>
      simp only [resumed] at held
      rw [resumed] at uses
      cases progress with
      | done result =>
        have named : s.playedName ref = action.name := by simp [playedName, known, plays]
        have awaited : r.awaits (.played action (.ofUse action.name result)) = true := by
          simp [Run.awaits, plays]
        rw [named] at held
        exact told uses.spares awaited rfl held
      | held more =>
        cases held
        refine ⟨r.rank, ⟨r, ?_, fits, rfl⟩, .inr ⟨rfl, span_of_resume resumed⟩⟩
        rw [(uses.held more rfl).1.engine, known]

/-- A listener whose run is held is held in something that the run waits for. -/
theorem holds_of_hearTurn {token : TokenRef} {run : RunRef}
    (heard : s.hearTurn token = (next, .held run hold)) : ∃ rank, next.Holds run hold rank := by
  unfold hearTurn at heard
  split at heard
  · cases heard
  · cases heard
  · next loaded script _ =>
    split at heard
    · cases heard
    · next ref begun submitted =>
      obtain ⟨free, rfl, arrived, -⟩ := engine_submit submitted
      have known : begun.engine.run? loaded.engine.entries.length = some (Run.begin script) := by
        rw [arrived]
        exact Engine.run?_begun token script free
      rcases followed : begun.follow loaded.engine.entries.length with
        ⟨told, (mishap | summary) | again⟩
      all_goals rw [followed] at heard; cases heard
      obtain ⟨rank, -, holds⟩ := holds_of_follow known followed
      exact ⟨rank, holds⟩

theorem holds_of_tellListener {round : Nat} {token : TokenRef} {listener : Listener}
    {run : RunRef} (heard : s.tellListener round token listener = (next, .held run hold)) :
    ∃ rank, next.Holds run hold rank := by
  unfold tellListener at heard
  dsimp only at heard
  split at heard
  · cases heard
  · split at heard
    · exact holds_of_hearTurn heard
    · cases heard

/-! ## Calls that are taken up -/

/-- A session in which nobody else has taken up a run that is held. -/
def LeavesRuns (s later : Session) : Prop :=
  ∀ ref hold rank, s.Holds ref hold rank → later.Holds ref hold rank

/-- Whoever spares the runs, perhaps stopping them, leaves them where they are held. -/
theorem Spares.leavesRuns (spares : s.Spares next) : s.LeavesRuns next := by
  rintro ref hold rank ⟨r, known, fits, rfl⟩
  obtain ⟨run, knownNext, same⟩ := spares.known known
  refine ⟨run, knownNext, ?_, ?_⟩
  · rcases same with rfl | rfl
    · exact fits
    · cases hold <;> exact fits
  · rcases same with rfl | rfl <;> rfl

/-- Whether a call comes to its end, however often it is held, whatever others do meanwhile of what
they may do, and whether or not its pauses go to their ends. -/
inductive Finishes (others : Session → Session → Prop) : Session × Flow → Prop
  | done (s : Session) (answer : Answer) : Finishes others (s, .over answer)
  | held (s : Session) (activity : Activity)
      (later : ∀ next rested, others s next →
        Finishes others (next.takeUpActivity rested activity)) :
      Finishes others (s, .held activity)

section Listeners

variable {others : Session → Session → Prop} {combat : CombatRef} {errand : Errand}
  {token : TokenRef}

/-- A listener comes to its end, if the next ones do. -/
theorem Holds.finishes {listeners : List Listener} {s : Session} {run : RunRef} {hold : Hold}
    {rank : Nat} (apart : ∀ before later, others before later → before.LeavesRuns later)
    (holds : s.Holds run hold rank)
    (next : ∀ s, Finishes others
      (flowOfErrand combat errand (tellListeners combat token s listeners))) :
    Finishes others (s, .held (.errand combat errand (.listening token listeners run hold))) := by
  refine Finishes.held s _ fun later rested allowed => ?_
  simp only [takeUpActivity, takeUpErrand]
  have held := apart s later allowed run hold rank holds
  rcases taken : later.takeUp run rested hold with ⟨told, (mishap | summary) | again⟩
  · exact Finishes.done _ _
  · exact next _
  · obtain ⟨lower, holdsAgain, less⟩ := held.takeUp taken
    exact Holds.finishes apart holdsAgain next
termination_by (rank, hold.span)
decreasing_by
  rw [Prod.lex_def]
  exact less

/-- All listeners of a turn come to their end. -/
theorem finishes_tellListeners
    (apart : ∀ before later, others before later → before.LeavesRuns later)
    (listeners : List Listener) (s : Session) :
    Finishes others (flowOfErrand combat errand (tellListeners combat token s listeners)) := by
  induction listeners generalizing s with
  | nil => exact Finishes.done _ _
  | cons listener listeners inductionHypothesis =>
    unfold tellListeners
    cases heard : s.tellListener (s.combat combat).round token listener with
    | mk next hearing =>
      cases hearing with
      | done => exact inductionHypothesis next
      | failed failure => exact Finishes.done _ _
      | held run hold =>
        obtain ⟨rank, holds⟩ := holds_of_tellListener heard
        exact holds.finishes apart inductionHypothesis

end Listeners

end Session
end TurnScript
