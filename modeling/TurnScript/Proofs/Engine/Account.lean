import Mathlib.Data.List.Induction
import TurnScript.Proofs.Engine.History

/-!
# The account of a run

What a run has done is read off the news that a history has for it: the dispatches that came to an
outcome, in the order of time, and how things stood at each condition. The run's ledger and count
are those of its concluded dispatches, and the dispatches that it began are the concluded ones with
the one that is still under way. None of this depends on what else happens.
-/

namespace TurnScript

variable {σ : Type}

/-- What a run is told by something that happens. -/
def Happening.newsFor? (ref : RunRef) : Happening σ → Option News
  | .told other news => if other = ref then some news else none
  | _ => none

/-- The news that a history has for a run. -/
def newsFor (ref : RunRef) (history : List (Happening σ)) : List News :=
  history.filterMap (Happening.newsFor? ref)

/-- The dispatches that news conclude, in the order of time. -/
def playsOf (news : List News) : List (Action × Outcome) :=
  news.filterMap News.play?

/-- How things stood at the conditions that news are about, in the order of time. -/
def sightsOf (news : List News) : List Sight :=
  news.filterMap News.sight?

/-- The dispatches that a run begins among some deeds. -/
def begunBy (ref : RunRef) (deeds : List (RunRef × Deed)) : List Action :=
  deeds.filterMap fun (other, deed) => if other = ref then deed.played? else none

/-- The deeds of a run among some. -/
def deedsBy (ref : RunRef) (deeds : List (RunRef × Deed)) : List Deed :=
  deeds.filterMap fun (other, deed) => if other = ref then some deed else none

@[simp] theorem newsFor_append (ref : RunRef) (earlier later : List (Happening σ)) :
    newsFor ref (earlier ++ later) = newsFor ref earlier ++ newsFor ref later :=
  List.filterMap_append

/-- The news of the first happening come before those of the rest. -/
theorem newsFor_cons (ref : RunRef) (happening : Happening σ) (rest : List (Happening σ)) :
    newsFor ref (happening :: rest) = newsFor ref [happening] ++ newsFor ref rest :=
  newsFor_append ref [happening] rest

@[simp] theorem newsFor_told (ref : RunRef) (news : News) :
    newsFor ref [(.told ref news : Happening σ)] = [news] := by
  simp [newsFor, Happening.newsFor?]

@[simp] theorem playsOf_append (earlier later : List News) :
    playsOf (earlier ++ later) = playsOf earlier ++ playsOf later :=
  List.filterMap_append

@[simp] theorem sightsOf_append (earlier later : List News) :
    sightsOf (earlier ++ later) = sightsOf earlier ++ sightsOf later :=
  List.filterMap_append

@[simp] theorem playsOf_singleton (news : News) : playsOf [news] = news.play?.toList := by
  cases played : news.play? <;> simp [playsOf, played]

@[simp] theorem sightsOf_singleton (news : News) : sightsOf [news] = news.sight?.toList := by
  cases sighted : news.sight? <;> simp [sightsOf, sighted]

@[simp] theorem begunBy_append (ref : RunRef) (earlier later : List (RunRef × Deed)) :
    begunBy ref (earlier ++ later) = begunBy ref earlier ++ begunBy ref later :=
  List.filterMap_append

@[simp] theorem deedsBy_append (ref : RunRef) (earlier later : List (RunRef × Deed)) :
    deedsBy ref (earlier ++ later) = deedsBy ref earlier ++ deedsBy ref later :=
  List.filterMap_append

@[simp] theorem Ledger.recordAll_append (ledger : Ledger)
    (earlier later : List (Action × Outcome)) :
    ledger.recordAll (earlier ++ later) = (ledger.recordAll earlier).recordAll later := by
  simp [recordAll]

/-- A run has come from one state to another on some news, and has begun some dispatches. -/
structure Run.Leads (r : Run) (news : List News) (begun : List Action) (next : Run) : Prop where
  script : next.script = r.script
  stopped : r.stopped = true → next.stopped = true
  ledger : next.ledger = r.ledger.recordAll (playsOf news)
  executed : next.executed = r.executed + (playsOf news).length
  begun : r.played?.toList ++ begun = (playsOf news).map (·.1) ++ next.played?.toList
  rank : next.rank + news.length ≤ r.rank

namespace Run

variable {r middle next : Run} {earlier later : List News} {begun begunLater : List Action}

theorem Leads.refl (r : Run) : r.Leads [] [] r where
  script := rfl
  stopped := id
  ledger := rfl
  executed := rfl
  begun := by simp [playsOf]
  rank := Nat.le_refl _

theorem Leads.trans (first : r.Leads earlier begun middle)
    (second : middle.Leads later begunLater next) :
    r.Leads (earlier ++ later) (begun ++ begunLater) next where
  script := second.script.trans first.script
  stopped := fun stopped => second.stopped (first.stopped stopped)
  ledger := by
    rw [second.ledger, first.ledger]
    simp
  executed := by
    rw [second.executed, first.executed]
    simp [Nat.add_assoc]
  begun := by
    rw [← List.append_assoc, first.begun, List.append_assoc, second.begun, playsOf_append,
      List.map_append, List.append_assoc]
  rank := by
    have firstRank := first.rank
    have secondRank := second.rank
    simp only [List.length_append]
    omega

/-- One piece of news that a run waits for. -/
theorem Moves.leads {active : Bool} {news : News} (moves : r.Moves active news next) :
    r.Leads [news] next.played?.toList next where
  script := moves.keeps.1
  stopped := fun stopped => moves.keeps.2.1.trans stopped
  ledger := by
    rw [moves.records.1, playsOf_singleton]
  executed := by
    rw [moves.records.2, playsOf_singleton]
  begun := by
    rw [moves.played?_eq, playsOf_singleton]
    cases news.play? <;> rfl
  rank := by
    have lower : next.rank < r.rank := moves.rank_lt
    simp only [List.length_singleton]
    omega

theorem leads_halted (r : Run) : r.Leads [] [] r.halted where
  script := rfl
  stopped := fun _ => rfl
  ledger := rfl
  executed := rfl
  begun := by simp [playsOf, halted, played?]
  rank := by simp [halted, rank]

/-- A run that has just begun waits for no dispatch. -/
theorem begin_played? (script : List Action) : (begin script).played? = none := by
  rcases begin_cases script with ⟨action, ahead, _, begun⟩ | ⟨_, begun⟩
  · rw [begun]
    rfl
  · rw [begun]
    rfl

/-- A run that has just begun has recorded nothing. -/
theorem begin_untouched (script : List Action) :
    (begin script).script = script ∧ (begin script).ledger = [] ∧ (begin script).executed = 0 := by
  rcases begin_cases script with ⟨action, ahead, _, begun⟩ | ⟨_, begun⟩
  · rw [begun]
    exact ⟨rfl, rfl, rfl⟩
  · rw [begun]
    exact ⟨rfl, rfl, rfl⟩

end Run

namespace Engine

variable {e : Engine σ} {ref : RunRef} {r : Run}

/-- Only news for a run make it begin a dispatch. -/
theorem begunBy_untold {happening : Happening σ} (untold : ∀ news, happening ≠ .told ref news) :
    begunBy ref (e.deed? happening).toList = [] := by
  cases happening with
  | arrived subject script =>
    cases busy : e.executing with
    | true => simp [deed?, busy, begunBy]
    | false =>
      have quiet : (Run.begin script).deed?.bind Deed.played? = none :=
        (Run.begin script).bind_deed?.trans (Run.begin_played? script)
      cases done : (Run.begin script).deed? with
      | none => simp [deed?, busy, done, begunBy]
      | some deed =>
        have unplayed : deed.played? = none := by simpa [done] using quiet
        simp [deed?, busy, done, begunBy, unplayed]
  | stopped | queried => rfl
  | told other news =>
    have distinct : other ≠ ref := by
      intro same
      exact untold news (by rw [same])
    cases done : ((e.effect (.told other news)).run? other).bind Run.deed? <;>
      simp [deed?, done, begunBy, distinct]

/-- A run that is known does something that can be seen only as it is told its news. -/
theorem deed?_untold {happening : Happening σ} (known : e.run? ref = some r)
    (untold : ∀ news, happening ≠ .told ref news) (deed : Deed) :
    e.deed? happening ≠ some (ref, deed) := by
  cases happening with
  | arrived subject script =>
    intro seen
    simp only [deed?] at seen
    split at seen
    · cases seen
    · obtain ⟨_, _, fresh⟩ := Option.map_eq_some_iff.mp seen
      have unknown : e.run? ref = none :=
        (run?_eq_none_iff e ref).mpr (Nat.le_of_eq (Prod.mk.inj fresh).1)
      rw [known] at unknown
      cases unknown
  | stopped | queried => simp [deed?]
  | told other news =>
    intro seen
    obtain ⟨_, _, same⟩ := Option.map_eq_some_iff.mp seen
    exact untold news (by rw [(Prod.mk.inj same).1])

theorem deedsBy_untold {happening : Happening σ} (known : e.run? ref = some r)
    (untold : ∀ news, happening ≠ .told ref news) :
    deedsBy ref (e.deed? happening).toList = [] := by
  have elsewhere := deed?_untold known untold
  cases done : e.deed? happening with
  | none => rfl
  | some seen =>
    have other : seen.1 ≠ ref := by
      rintro rfl
      exact elsewhere seen.2 done
    simp [deedsBy, other]

/-- As a run is told its news it does what it does at its next stage. -/
theorem deedsBy_told {news : News} {next : Run}
    (known : (e.effect (.told ref news)).run? ref = some next) :
    deedsBy ref (e.deed? (.told ref news)).toList = next.deed?.toList := by
  cases done : next.deed? <;> simp [deed?, known, done, deedsBy]

/-- Nothing that is not told to a run is news for it. -/
theorem newsFor_untold {happening : Happening σ} (untold : ∀ news, happening ≠ .told ref news) :
    newsFor ref [happening] = [] := by
  cases happening with
  | told other news =>
    have distinct : other ≠ ref := by
      intro same
      exact untold news (by rw [same])
    simp [newsFor, Happening.newsFor?, distinct]
  | _ => rfl

/-- One happening, as the account of a run has it. -/
theorem leads_effect {happening : Happening σ} (known : e.run? ref = some r)
    (permitted : e.permits happening) :
    ∃ next, (e.effect happening).run? ref = some next ∧
      r.Leads (newsFor ref [happening]) (begunBy ref (e.deed? happening).toList) next := by
  obtain ⟨next, knownNext, befallen⟩ := befalls known permitted
  refine ⟨next, knownNext, ?_⟩
  cases befallen with
  | spared untold =>
    rw [newsFor_untold untold, begunBy_untold untold]
    exact .refl r
  | halted held => exact r.leads_halted
  | @moved news _ moves =>
    have begun : begunBy ref (e.deed? (.told ref news)).toList = next.played?.toList := by
      simp only [deed?, knownNext, Option.bind_some]
      rw [← next.bind_deed?]
      cases done : next.deed? with
      | none => rfl
      | some deed => cases played : deed.played? <;> simp [begunBy, played]
    rw [begun, newsFor_told]
    exact moves.leads

/-- The account of a known run over a history. -/
theorem leads_after {history : List (Happening σ)} (known : e.run? ref = some r)
    (allowed : e.allows history) :
    ∃ next, (e.after history).run? ref = some next ∧
      r.Leads (newsFor ref history) (begunBy ref (e.deeds history)) next := by
  induction history generalizing e r with
  | nil => exact ⟨r, known, .refl r⟩
  | cons happening rest inductionHypothesis =>
    obtain ⟨permitted, allowedRest⟩ := (allows_cons e happening rest).mp allowed
    obtain ⟨middle, knownMiddle, first⟩ := leads_effect known permitted
    obtain ⟨next, knownNext, second⟩ := inductionHypothesis knownMiddle allowedRest
    refine ⟨next, knownNext, ?_⟩
    rw [newsFor_cons, deeds, begunBy_append]
    exact first.trans second

/-- What has become of a run since its script arrived. -/
theorem arrived_after {subject : σ} {script : List Action} {history : List (Happening σ)}
    (free : e.executing = false)
    (allowed : (e.effect (.arrived subject script)).allows history) :
    ∃ r, ((e.effect (.arrived subject script)).after history).run? e.entries.length = some r ∧
      r.script = script ∧
      r.ledger = Ledger.recordAll [] (playsOf (newsFor e.entries.length history)) ∧
      r.executed = (playsOf (newsFor e.entries.length history)).length ∧
      begunBy e.entries.length ((e.effect (.arrived subject script)).deeds history) =
        (playsOf (newsFor e.entries.length history)).map (·.1) ++ r.played?.toList ∧
      (newsFor e.entries.length history).length + r.rank ≤ (Run.begin script).rank := by
  obtain ⟨r, knownAfter, leads⟩ := leads_after (run?_begun subject script free) allowed
  obtain ⟨scripted, noLedger, noneExecuted⟩ := Run.begin_untouched script
  refine ⟨r, knownAfter, leads.script.trans scripted, ?_, ?_, ?_, ?_⟩
  · rw [leads.ledger, noLedger]
  · rw [leads.executed, noneExecuted, Nat.zero_add]
  · have begun := leads.begun
    rw [Run.begin_played?, Option.toList_none, List.nil_append] at begun
    exact begun
  · have ranked := leads.rank
    omega

/-- The account of a run from the start of its engine: its ledger and its count are those of its
concluded dispatches, and it has begun those and the one that is under way. -/
structure Accounts (ref : RunRef) (history : List (Happening σ)) (r : Run) : Prop where
  ledger : r.ledger = Ledger.recordAll [] (playsOf (newsFor ref history))
  executed : r.executed = (playsOf (newsFor ref history)).length
  begun : begunBy ref (({} : Engine σ).deeds history) =
    (playsOf (newsFor ref history)).map (·.1) ++ r.played?.toList

/-- A run that is not known has had no news and begun nothing. -/
theorem unknown_after {history : List (Happening σ)} (allowed : e.allows history)
    (unknown : (e.after history).run? ref = none) :
    newsFor ref history = [] ∧ begunBy ref (e.deeds history) = [] := by
  induction history generalizing e with
  | nil => exact ⟨rfl, rfl⟩
  | cons happening rest inductionHypothesis =>
    obtain ⟨permitted, allowedRest⟩ := (allows_cons e happening rest).mp allowed
    have unknownNow : e.run? ref = none := by
      cases known : e.run? ref with
      | none => rfl
      | some r =>
        obtain ⟨next, knownNext, _⟩ := leads_after known allowed
        rw [unknown] at knownNext
        cases knownNext
    have untold : ∀ news, happening ≠ .told ref news := by
      rintro news rfl
      simp [permits, unknownNow] at permitted
    obtain ⟨noNews, noneBegun⟩ := inductionHypothesis allowedRest unknown
    constructor
    · rw [newsFor_cons, newsFor_untold untold, noNews]
      rfl
    · rw [deeds, begunBy_append, begunBy_untold untold, noneBegun]
      rfl

/-- Every run of an engine has its account, whatever has happened. -/
theorem accounts_after {history : List (Happening σ)}
    (allowed : ({} : Engine σ).allows history)
    (known : (({} : Engine σ).after history).run? ref = some r) : Accounts ref history r := by
  induction history using List.reverseRecOn generalizing r with
  | nil => cases known
  | append_singleton earlier happening inductionHypothesis =>
    obtain ⟨allowedEarlier, allowedLast⟩ := (allows_append _ earlier [happening]).mp allowed
    have permitted : (({} : Engine σ).after earlier).permits happening :=
      ((allows_cons _ happening []).mp allowedLast).1
    rw [after_append, after_cons, after_nil] at known
    cases before : (({} : Engine σ).after earlier).run? ref with
    | none =>
      obtain ⟨subject, script, rfl, _, _, rfl⟩ := run?_fresh before known
      obtain ⟨noNews, noneBegun⟩ := unknown_after allowedEarlier before
      have untold : ∀ news, Happening.arrived subject script ≠ .told ref news := by simp
      obtain ⟨_, noLedger, noneExecuted⟩ := Run.begin_untouched script
      refine ⟨?_, ?_, ?_⟩
      · simp [noNews, newsFor_untold untold, noLedger, playsOf, Ledger.recordAll]
      · simp [noNews, newsFor_untold untold, noneExecuted, playsOf]
      · simp [deeds_append, deeds, noNews, newsFor_untold untold, noneBegun, playsOf,
          begunBy_untold untold, Run.begin_played?]
    | some middle =>
      have account := inductionHypothesis allowedEarlier before
      obtain ⟨next, knownNext, leads⟩ := leads_effect before permitted
      obtain rfl := Option.some.inj (knownNext.symm.trans known)
      refine ⟨?_, ?_, ?_⟩
      · rw [leads.ledger, account.ledger]
        simp
      · rw [leads.executed, account.executed]
        simp
      · rw [deeds_append, begunBy_append, account.begun, List.append_assoc, deeds, deeds,
          List.append_nil, leads.begun]
        simp

end Engine
end TurnScript
