import Mathlib.Data.List.Basic
import TurnScript.Proofs.Engine.SingleFlight

/-!
# Notices of a run

A run is done with its loop before it reports, and it reports before it can fail to. So what it does
is a part within the loop, in which it asks, skips and plays, and then a closing part: nothing if it
was stopped, a report if not, and a complaint as soon as anything goes wrong that is not the use of
an action. Whoever takes a notice may stop the engine and may fail to take it. A complaint that
cannot be taken is not followed by another one, and its own mishap is the end of the run.

The stage at which a run stands tells which closing part there has been and what has gone wrong, and
every piece of news keeps this true.
-/

namespace TurnScript

/-- Whether a deed belongs to the loop of a run. -/
def Deed.isInLoop : Deed → Bool
  | asks _ | skips _ | plays _ => true
  | reports | complains _ => false

/-- What has gone wrong outside the use of an action, as a piece of news has it. -/
def News.mishap? : News → Option Mishap
  | failed mishap => some mishap
  | overran => some .overlong
  | _ => none

/-- What has gone wrong, in the order of time. -/
def mishapsOf (news : List News) : List Mishap :=
  news.filterMap News.mishap?

/-- Whether a run at a stage is within its loop. -/
def Stage.isLooping : Stage → Bool
  | .asking .. | .skipping .. | .acting .. | .pacing .. | .branching .. | .settling _ => true
  | .reporting | .failing _ | .ended _ => false

/-- Whether a run at a stage does nothing more that can be seen. -/
def Stage.isSpent : Stage → Bool
  | .failing _ | .ended _ => true
  | _ => false

/-- The deeds after the loop and all that has gone wrong, for a run at a stage. -/
inductive Closes : List Deed → List Mishap → Stage → Prop where
  | looping {stage} (looping : stage.isLooping = true) : Closes [] [] stage
  | stopped : Closes [] [] (.ended (.finished true))
  | reporting : Closes [.reports] [] .reporting
  | finished : Closes [.reports] [] (.ended (.finished false))
  | failing {before} (mishap : Mishap) (reported : before = [] ∨ before = [.reports]) :
      Closes (before ++ [.complains mishap]) [mishap] (.failing mishap)
  | raised {before} (mishap : Mishap) (reported : before = [] ∨ before = [.reports]) :
      Closes (before ++ [.complains mishap]) [mishap] (.ended (.raised mishap))
  | raisedAnew {before} (mishap later : Mishap) (reported : before = [] ∨ before = [.reports]) :
      Closes (before ++ [.complains mishap]) [mishap, later] (.ended (.raised later))

/-- The deeds of a run at a stage are some within its loop, and then those that close it. -/
structure Heralds (deeds : List Deed) (mishaps : List Mishap) (stage : Stage) : Prop where
  split : ∃ loop closing, deeds = loop ++ closing ∧ (∀ deed ∈ loop, deed.isInLoop = true) ∧
    Closes closing mishaps stage

@[simp] theorem mishapsOf_append (earlier later : List News) :
    mishapsOf (earlier ++ later) = mishapsOf earlier ++ mishapsOf later :=
  List.filterMap_append

@[simp] theorem mishapsOf_singleton (news : News) : mishapsOf [news] = news.mishap?.toList := by
  cases wrong : news.mishap? <;> simp [mishapsOf, wrong]

/-- The dispatches that a run begins are those among its deeds. -/
theorem begunBy_eq (ref : RunRef) (deeds : List (RunRef × Deed)) :
    begunBy ref deeds = (deedsBy ref deeds).filterMap Deed.played? := by
  rw [begunBy, deedsBy, List.filterMap_filterMap]
  apply List.filterMap_congr
  rintro ⟨other, deed⟩ _
  by_cases same : other = ref <;> simp [same]

section Heralding

variable {deeds closing loop : List Deed} {mishaps : List Mishap} {stage : Stage}

theorem Heralds.of_loop (within : ∀ deed ∈ loop, deed.isInLoop = true)
    (closes : Closes closing mishaps stage) : Heralds (loop ++ closing) mishaps stage :=
  ⟨loop, closing, rfl, within, closes⟩

/-- Within the loop nothing has gone wrong, and nothing has been done that closes it. -/
theorem Heralds.within (heralds : Heralds deeds mishaps stage) (looping : stage.isLooping = true) :
    mishaps = [] ∧ ∀ deed ∈ deeds, deed.isInLoop = true := by
  obtain ⟨loop, closing, rfl, within, closes⟩ := heralds.split
  cases closes with
  | looping =>
    rw [List.append_nil]
    exact ⟨rfl, within⟩
  | _ => cases looping

/-- At its report a run has left the loop, and nothing has gone wrong. -/
theorem Heralds.of_reporting (heralds : Heralds deeds mishaps .reporting) :
    mishaps = [] ∧
      ∃ loop, (∀ deed ∈ loop, deed.isInLoop = true) ∧ deeds = loop ++ [.reports] := by
  obtain ⟨loop, closing, rfl, within, closes⟩ := heralds.split
  cases closes with
  | looping looping => cases looping
  | reporting => exact ⟨rfl, loop, within, rfl⟩

/-- At its complaint a run has left the loop, perhaps with a report, and one thing has gone
wrong. -/
theorem Heralds.of_failing {mishap : Mishap} (heralds : Heralds deeds mishaps (.failing mishap)) :
    mishaps = [mishap] ∧
      ∃ loop before, (∀ deed ∈ loop, deed.isInLoop = true) ∧
        (before = [] ∨ before = [.reports]) ∧ deeds = loop ++ (before ++ [.complains mishap]) := by
  obtain ⟨loop, closing, rfl, within, closes⟩ := heralds.split
  cases closes with
  | looping looping => cases looping
  | failing _ reported => exact ⟨rfl, loop, _, within, reported, rfl⟩

/-- A deed of the loop leaves a run within the loop. -/
theorem Heralds.of_looping (within : ∀ deed ∈ loop, deed.isInLoop = true) {deed? : Option Deed}
    (next : ∀ deed, deed? = some deed → deed.isInLoop = true) (looping : stage.isLooping = true) :
    Heralds (loop ++ deed?.toList) [] stage := by
  have longer : ∀ deed ∈ loop ++ deed?.toList, deed.isInLoop = true := by
    intro deed member
    rcases List.mem_append.mp member with before | last
    · exact within deed before
    · exact next deed (by simpa using last)
  simpa using Heralds.of_loop longer (.looping looping)

end Heralding

namespace Run

variable {r next : Run} {rest : List Action} {deeds loop : List Deed} {news : List News}
  {latest : News}

/-- A run that leaves the loop reports, unless it has been stopped. -/
theorem heralds_walk (within : ∀ deed ∈ loop, deed.isInLoop = true) :
    Heralds (loop ++ (r.walk (!r.stopped) rest).deed?.toList) []
      (r.walk (!r.stopped) rest).stage := by
  rcases r.walk_cases (!r.stopped) rest with ⟨action, ahead, rfl, _, on⟩ | ⟨_, closed⟩
  · rw [on]
    exact .of_looping within (by simp [deed?, Deed.isInLoop]) rfl
  · rw [closed]
    cases stopped : r.stopped with
    | true => simpa [close, deed?, stopped] using Heralds.of_loop within .stopped
    | false => simpa [close, deed?, stopped] using Heralds.of_loop within .reporting

theorem heralds_begin (script : List Action) :
    Heralds (begin script).deed?.toList [] (begin script).stage := by
  rcases begin_cases script with ⟨action, ahead, _, begun⟩ | ⟨_, begun⟩
  · rw [begun]
    have asked : ∀ deed ∈ [Deed.asks action], deed.isInLoop = true := by simp [Deed.isInLoop]
    exact .of_loop asked (.looping rfl)
  · rw [begun]
    have nothing : ∀ deed ∈ ([] : List Deed), deed.isInLoop = true := by simp
    exact .of_loop nothing .reporting

/-- Whatever a run does on news that it waits for, its stage tells of its notices. -/
theorem Moves.heralds (moves : r.Moves (!r.stopped) latest next)
    (heralds : Heralds deeds (mishapsOf news) r.stage) :
    Heralds (deeds ++ next.deed?.toList) (mishapsOf (news ++ [latest])) next.stage := by
  rw [mishapsOf_append, mishapsOf_singleton]
  generalize mishapsOf news = mishaps at heralds ⊢
  cases moves with
  | accept standing | decline standing | score _ standing | scoreAside _ standing
  | turnAside standing =>
    obtain ⟨rfl, within⟩ := heralds.within (by simp [standing, Stage.isLooping])
    exact .of_looping within (by simp [deed?, Deed.isInLoop]) rfl
  | passBy standing | goOn standing | comeBack standing =>
    obtain ⟨rfl, within⟩ := heralds.within (by simp [standing, Stage.isLooping])
    exact heralds_walk within
  | finish standing =>
    obtain ⟨rfl, loop, within, rfl⟩ := (standing ▸ heralds).of_reporting
    simpa [deed?, News.mishap?] using Heralds.of_loop within .finished
  | giveUp standing =>
    obtain ⟨rfl, loop, before, within, reported, rfl⟩ := (standing ▸ heralds).of_failing
    simpa [deed?, News.mishap?] using Heralds.of_loop within (.raised _ reported)
  | collapse later standing =>
    obtain ⟨rfl, loop, before, within, reported, rfl⟩ := (standing ▸ heralds).of_failing
    simpa [deed?, News.mishap?] using Heralds.of_loop within (.raisedAnew _ later reported)
  | stumble mishap noticing =>
    rcases noticing with ⟨action, rest, standing⟩ | standing
    · obtain ⟨rfl, within⟩ := heralds.within (by simp [standing, Stage.isLooping])
      exact .of_loop within (.failing mishap (.inl rfl))
    · obtain ⟨rfl, loop, within, rfl⟩ := (standing ▸ heralds).of_reporting
      simpa [deed?, News.mishap?] using Heralds.of_loop within (.failing mishap (.inr rfl))
  | overrun pausing =>
    have looping : r.stage.isLooping = true := by
      rcases pausing with ⟨action, outcome, rest, standing⟩ | ⟨rest, standing⟩
      · rw [standing]
        rfl
      · rw [standing]
        rfl
    obtain ⟨rfl, within⟩ := heralds.within looping
    exact .of_loop within (.failing .overlong (.inl rfl))

/-- A run comes to its report only if it has not been stopped. -/
theorem Moves.reports_unstopped (moves : r.Moves (!r.stopped) latest next)
    (reports : next.deed? = some .reports) : next.stage = .reporting ∧ next.stopped = false := by
  cases moves with
  | @passBy _ rest | @goOn _ _ rest | @comeBack rest =>
    rcases r.walk_cases (!r.stopped) rest with ⟨_, _, _, _, walked⟩ | ⟨_, walked⟩
    · rw [walked] at reports
      cases reports
    · rw [walked] at reports ⊢
      cases stopped : r.stopped with
      | true => simp [close, deed?, stopped] at reports
      | false => simp [close, stopped]
  | _ => cases reports

/-- Past its loop a run waits for no dispatch, and stays there. -/
theorem Moves.past (moves : r.Moves (!r.stopped) latest next)
    (past : r.stage.isLooping = false) :
    next.stage.isLooping = false ∧ latest.play? = none := by
  cases moves with
  | finish | giveUp | collapse | stumble | overrun => exact ⟨rfl, rfl⟩
  | accept standing | decline standing | score _ standing | scoreAside _ standing
  | turnAside standing | passBy standing | goOn standing | comeBack standing =>
    rw [standing] at past
    cases past

/-- Once something has gone wrong a run only comes to its end. -/
theorem Moves.spent (moves : r.Moves (!r.stopped) latest next)
    (wrong : r.stage.isSpent = true ∨ latest.mishap?.isSome = true) :
    next.stage.isSpent = true ∧ (r.stage.isSpent = true → next.deed? = none) := by
  cases moves with
  | giveUp | collapse => exact ⟨rfl, fun _ => rfl⟩
  | stumble mishap noticing =>
    refine ⟨rfl, fun spent => ?_⟩
    rcases noticing with ⟨action, rest, standing⟩ | standing <;>
      simp [standing, Stage.isSpent] at spent
  | overrun pausing =>
    refine ⟨rfl, fun spent => ?_⟩
    rcases pausing with ⟨action, outcome, rest, standing⟩ | ⟨rest, standing⟩ <;>
      simp [standing, Stage.isSpent] at spent
  | accept standing | decline standing | score _ standing | scoreAside _ standing
  | turnAside standing | passBy standing | goOn standing | comeBack standing | finish standing =>
    simp [standing, Stage.isSpent, News.mishap?] at wrong

theorem played?_of_past (past : r.stage.isLooping = false) : r.played? = none := by
  cases standing : r.stage <;> simp_all [played?, Stage.isLooping]

end Run

/-! ## What the notices tell -/

section Telling

variable {deeds : List Deed} {mishaps : List Mishap} {mishap : Mishap} {stage : Stage}

/-- Deeds of the loop are neither a report nor a complaint. -/
theorem not_closing_of_loop {loop : List Deed} (within : ∀ deed ∈ loop, deed.isInLoop = true) :
    .reports ∉ loop ∧ ∀ mishap, .complains mishap ∉ loop := by
  constructor
  · intro member
    cases within _ member
  · intro mishap member
    cases within _ member

theorem Heralds.count_reports_le (heralds : Heralds deeds mishaps stage) :
    deeds.count .reports ≤ 1 := by
  obtain ⟨loop, closing, rfl, within, closes⟩ := heralds.split
  rw [List.count_append, List.count_eq_zero.mpr (not_closing_of_loop within).1]
  cases closes with
  | looping | stopped | reporting | finished => simp
  | failing _ reported | raised _ reported | raisedAnew _ _ reported =>
    rcases reported with rfl | rfl <;> simp

/-- A run that ends with a summary has not complained, and it has reported unless the summary says
that it was stopped. -/
theorem Heralds.of_finished {stopped : Bool}
    (heralds : Heralds deeds mishaps (.ended (.finished stopped))) :
    (∀ mishap, .complains mishap ∉ deeds) ∧ (.reports ∈ deeds ↔ stopped = false) := by
  obtain ⟨loop, closing, rfl, within, closes⟩ := heralds.split
  obtain ⟨unreported, uncomplaining⟩ := not_closing_of_loop within
  cases closes with
  | looping looping => cases looping
  | stopped => simpa using ⟨uncomplaining, unreported⟩
  | finished => simpa using uncomplaining

/-- Where nothing has gone wrong, there is no complaint. -/
theorem Heralds.of_sound (heralds : Heralds deeds [] stage) :
    (∀ mishap, .complains mishap ∉ deeds) ∧ ∀ mishap, stage ≠ .ended (.raised mishap) := by
  obtain ⟨loop, closing, rfl, within, closes⟩ := heralds.split
  obtain ⟨_, uncomplaining⟩ := not_closing_of_loop within
  cases closes with
  | looping looping =>
    refine ⟨by simpa using uncomplaining, ?_⟩
    rintro mishap rfl
    cases looping
  | stopped | reporting | finished => exact ⟨by simpa using uncomplaining, by simp⟩

/-- What goes wrong is complained of at once, and nothing is done after that. The run ends with it,
or with what goes wrong with the complaint. -/
theorem Heralds.of_mishap {later : List Mishap}
    (heralds : Heralds deeds (mishap :: later) stage) :
    (∃ before, deeds = before ++ [.complains mishap] ∧ ∀ other, .complains other ∉ before) ∧
    later.length ≤ 1 ∧
    ∀ how, stage = .ended how → how = .raised (later.head?.getD mishap) := by
  obtain ⟨loop, closing, rfl, within, closes⟩ := heralds.split
  have complaint {before} (reported : before = [] ∨ before = [.reports]) :
      ∃ earlier, loop ++ (before ++ [Deed.complains mishap]) = earlier ++ [.complains mishap] ∧
        ∀ other, Deed.complains other ∉ earlier := by
    refine ⟨loop ++ before, (List.append_assoc ..).symm, ?_⟩
    intro other member
    rcases List.mem_append.mp member with early | late
    · exact (not_closing_of_loop within).2 other early
    · rcases reported with rfl | rfl <;> simp at late
  cases closes with
  | failing _ reported => exact ⟨complaint reported, by simp, by simp⟩
  | raised _ reported => exact ⟨complaint reported, by simp, by simp⟩
  | raisedAnew _ _ reported => exact ⟨complaint reported, by simp, by simp⟩

end Telling

namespace Engine

variable {σ : Type} {e : Engine σ} {ref : RunRef} {r : Run} {history : List (Happening σ)}

/-- A run that comes to its report has not been stopped by then. -/
theorem Sound.reports_unstopped {happening : Happening σ} (sound : e.Sound)
    (permitted : e.permits happening = true)
    (reports : e.deed? happening = some (ref, .reports)) :
    ∃ r, (e.effect happening).run? ref = some r ∧ r.stage = .reporting ∧ r.stopped = false := by
  cases happening with
  | arrived subject script =>
    cases free : e.executing with
    | true => simp [deed?, free] at reports
    | false =>
      simp only [deed?, free, Bool.false_eq_true, if_false, Option.map_eq_some_iff,
        Prod.mk.injEq] at reports
      obtain ⟨deed, done, rfl, rfl⟩ := reports
      refine ⟨Run.begin script, run?_begun subject script free, ?_, (Run.begin_fresh script).1⟩
      rcases Run.begin_cases script with ⟨action, ahead, _, begun⟩ | ⟨_, begun⟩
      · rw [begun] at done
        cases done
      · rw [begun]
  | stopped | queried => cases reports
  | told other news =>
    obtain ⟨r, next, known, knownNext, moves⟩ := moves_of_permits permitted
    simp only [deed?, knownNext, Option.bind_some, Option.map_eq_some_iff, Prod.mk.injEq]
      at reports
    obtain ⟨deed, done, rfl, rfl⟩ := reports
    rw [sound.isActive_eq known moves.unfinished] at moves
    exact ⟨next, knownNext, moves.reports_unstopped done⟩

/-- Past its loop a run begins no dispatch. -/
theorem Sound.begunBy_of_past (sound : e.Sound) (known : e.run? ref = some r)
    (past : r.stage.isLooping = false) (allowed : e.allows history = true) :
    begunBy ref (e.deeds history) = [] := by
  obtain ⟨next, knownNext, pastNext, idle⟩ := sound.run_induction
    (motive := fun news r => r.stage.isLooping = false ∧ playsOf news = []) known []
    ⟨past, rfl⟩ (fun _ _ past => past)
    (fun news r latest next standing moves => by
      obtain ⟨pastNext, unplayed⟩ := moves.past standing.1
      simp [pastNext, standing.2, unplayed]) allowed
  rw [List.nil_append] at idle
  obtain ⟨_, sameNext, leads⟩ := leads_after known allowed
  obtain rfl := Option.some.inj (knownNext.symm.trans sameNext)
  have begun := leads.begun
  rwa [Run.played?_of_past past, Run.played?_of_past pastNext, idle] at begun

/-- A run that has complained or is over does nothing more that can be seen. -/
theorem Sound.deedsBy_of_spent (sound : e.Sound) (known : e.run? ref = some r)
    (spent : r.stage.isSpent = true) (allowed : e.allows history = true) :
    deedsBy ref (e.deeds history) = [] := by
  obtain ⟨_, _, _, silent⟩ := sound.deed_induction
    (motive := fun _ deeds r => r.stage.isSpent = true ∧ deeds = []) known [] [] ⟨spent, rfl⟩
    (fun _ _ _ spent => spent)
    (fun news deeds r latest next standing moves => by
      obtain ⟨spentNext, silent⟩ := moves.spent (.inl standing.1)
      simp [spentNext, standing.2, silent standing.1]) allowed
  simpa using silent

/-- The run that holds the guard is the newest one. -/
theorem Reached.newest (reached : e.Reached) :
    ∀ ref, e.active = some ref → ref + 1 = e.entries.length := by
  obtain ⟨history, allowed, rfl⟩ := reached
  refine after_induction (motive := fun e : Engine σ =>
    ∀ ref, e.active = some ref → ref + 1 = e.entries.length) (by simp) ?_ allowed
  intro e happening newest permitted ref held
  cases happening with
  | arrived subject script =>
    cases free : e.executing with
    | true =>
      rw [effect_arrived_of_executing e subject script free] at held ⊢
      exact newest ref held
    | false =>
      simp only [effect, submit, free, Bool.false_eq_true, if_false, Option.map_some,
        Option.getD_some, Option.some.injEq] at held ⊢
      simp [← held]
  | stopped => cases held
  | queried => exact newest ref held
  | told other news =>
    have kept : (e.effect (.told other news)).entries.length = e.entries.length := by
      change ((e.change other _).release other).entries.length = e.entries.length
      unfold release
      split <;> simp [change]
    rcases e.told_guard other news with ⟨_, _, _, active⟩ | ⟨_, _, active⟩
    · rw [active] at held
      cases held
    · rw [kept]
      exact newest ref (active ▸ held)

/-- Once a run is over, the guard is free or a newer run holds it. -/
theorem Reached.released (reached : e.Reached) (known : e.run? ref = some r)
    (finished : r.isOver = true) :
    (e.executing = false ∧ e.active = none) ∨ ∃ newer, e.active = some newer ∧ ref < newer := by
  cases held : e.active with
  | none =>
    have unheld : e.executing ≠ true := fun executing => reached.sound.held_iff.mp executing held
    exact .inl ⟨by simpa using unheld, rfl⟩
  | some owner =>
    refine .inr ⟨owner, rfl, ?_⟩
    have listed : ref < owner + 1 := by
      rw [reached.newest owner held]
      apply Nat.lt_of_not_le
      intro beyond
      rw [(run?_eq_none_iff e ref).mpr beyond] at known
      cases known
    obtain ⟨run, knownRun, _, _, unfinished⟩ := reached.sound.owner owner held
    have other : ref ≠ owner := by
      rintro rfl
      rw [known, Option.some.injEq] at knownRun
      rw [← knownRun, finished] at unfinished
      cases unfinished
    exact Nat.lt_of_le_of_ne (Nat.le_of_lt_succ listed) other

/-- At the moment at which a run reports it has not been stopped, and it has counted all the
dispatches that it ever makes. -/
theorem reports_all {subject : σ} {script : List Action} {earlier later : List (Happening σ)}
    {happening : Happening σ} (reached : e.Reached) (free : e.executing = false)
    (allowed : (e.effect (.arrived subject script)).allows history = true)
    (split : .arrived subject script :: history = earlier ++ happening :: later)
    (reports : (e.after earlier).deed? happening = some (e.entries.length, .reports)) :
    ∃ now, (e.after (earlier ++ [happening])).run? e.entries.length = some now ∧
      now.stage = .reporting ∧ now.stopped = false ∧
      now.executed =
        (begunBy e.entries.length (e.deeds (.arrived subject script :: history))).length := by
  have whole : e.allows (.arrived subject script :: history) = true :=
    (allows_cons e _ history).mpr ⟨rfl, allowed⟩
  rw [split] at whole
  obtain ⟨allowedEarlier, allowedHere⟩ := (allows_append e earlier _).mp whole
  obtain ⟨permitted, allowedLater⟩ := (allows_cons _ happening later).mp allowedHere
  have sound : (e.after earlier).Sound := reached.sound.after allowedEarlier
  obtain ⟨now, known, standing, unstopped⟩ := sound.reports_unstopped permitted reports
  have idle : begunBy e.entries.length (((e.after earlier).effect happening).deeds later) = [] :=
    (sound.effect permitted).begunBy_of_past known (by rw [standing]; rfl) allowedLater
  refine ⟨now, by simpa using known, standing, unstopped, ?_⟩
  have made : begunBy e.entries.length (e.deeds (.arrived subject script :: history)) =
      begunBy e.entries.length (e.deeds (earlier ++ [happening])) := by
    rw [split, List.append_cons, deeds_append e (earlier ++ [happening]), begunBy_append]
    simp [idle]
  have quiet : begunBy e.entries.length (e.deed? (.arrived subject script)).toList = [] :=
    begunBy_untold (by simp)
  rw [made]
  cases earlier with
  | nil =>
    obtain ⟨rfl, rfl⟩ := List.cons.inj split
    obtain rfl := Option.some.inj ((run?_begun subject script free).symm.trans known)
    simp [deeds, quiet, (Run.begin_untouched script).2.2]
  | cons first earlier =>
    obtain ⟨rfl, _⟩ := List.cons.inj split
    have joined : history = earlier ++ [happening] ++ later := by
      rw [List.append_assoc]
      exact (List.cons.inj split).2
    have part : (e.effect (.arrived subject script)).allows (earlier ++ [happening]) = true := by
      rw [joined] at allowed
      exact ((allows_append _ _ later).mp allowed).1
    obtain ⟨_, same, _, _, executed, begun, _⟩ := arrived_after free part
    rw [after_append] at same
    obtain rfl := Option.some.inj (known.symm.trans same)
    have unplayed : now.played? = none := by simp [Run.played?, standing]
    rw [List.cons_append, deeds, begunBy_append, quiet, begun, unplayed, executed]
    simp

/-- The deeds of a run tell of its notices after every history since its script arrived. -/
theorem heralds_after {subject : σ} {script : List Action} (reached : e.Reached)
    (free : e.executing = false)
    (allowed : (e.effect (.arrived subject script)).allows history = true) :
    ∃ r, ((e.effect (.arrived subject script)).after history).run? e.entries.length = some r ∧
      Heralds (deedsBy e.entries.length (e.deeds (.arrived subject script :: history)))
        (mishapsOf (newsFor e.entries.length history)) r.stage := by
  have sound : (e.effect (.arrived subject script)).Sound := reached.sound.arrived subject script
  have known := run?_begun subject script free
  have first : deedsBy e.entries.length (e.deed? (.arrived subject script)).toList =
      (Run.begin script).deed?.toList := by
    cases done : (Run.begin script).deed? <;> simp [deed?, free, done, deedsBy]
  obtain ⟨r, knownAfter, heralds⟩ := sound.deed_induction
    (motive := fun news deeds r => Heralds deeds (mishapsOf news) r.stage) known [] _
    (Run.heralds_begin script) (fun _ _ _ heralds => heralds)
    (fun _ _ _ _ _ heralds moves => moves.heralds heralds) allowed
  refine ⟨r, knownAfter, ?_⟩
  rw [deeds, deedsBy_append, first]
  exact heralds

/-- Once something has gone wrong outside the use of an action, the run does nothing that can be
seen but complain of it there and then. -/
theorem silent_after_mishap {earlier later : List (Happening σ)} {news : News} (sound : e.Sound)
    (allowed : e.allows (earlier ++ .told ref news :: later) = true)
    (wrong : news.mishap?.isSome = true) :
    deedsBy ref ((e.after (earlier ++ [.told ref news])).deeds later) = [] := by
  obtain ⟨allowedEarlier, allowedHere⟩ := (allows_append e earlier _).mp allowed
  obtain ⟨permitted, allowedLater⟩ := (allows_cons _ (.told ref news) later).mp allowedHere
  have soundHere : (e.after earlier).Sound := sound.after allowedEarlier
  obtain ⟨r, next, known, knownNext, moves⟩ := moves_of_permits permitted
  rw [soundHere.isActive_eq known moves.unfinished] at moves
  rw [after_append]
  exact (soundHere.effect permitted).deedsBy_of_spent knownNext (moves.spent (.inr wrong)).1
    allowedLater

/-- The notices of a run tell how it ends, whoever stops the engine and whatever goes wrong with the
notices. A run reports at most once, only if it has not been stopped by then, and when it has
counted all its dispatches. If it ends with a summary it has not complained, and it has reported
unless the summary says that it was stopped. If anything goes wrong that is not the use of an
action, it complains of it there and then, once, and does nothing more that can be seen; it ends
with this mishap, or with that of the complaint. If nothing does, it does not complain. A script
that arrives while a run is being executed comes to nothing. And once a run is over, the guard is
free unless a newer run holds it. -/
theorem notices_tell_the_end {subject : σ} {script : List Action} (reached : e.Reached)
    (free : e.executing = false)
    (allowed : (e.effect (.arrived subject script)).allows history = true) :
    let ref := e.entries.length
    let start := e.effect (.arrived subject script)
    let deeds := deedsBy ref (e.deeds (.arrived subject script :: history))
    let mishaps := mishapsOf (newsFor ref history)
    ∃ r, (start.after history).run? ref = some r ∧
      deeds.count .reports ≤ 1 ∧
      (∀ earlier happening later,
        .arrived subject script :: history = earlier ++ happening :: later →
        (e.after earlier).deed? happening = some (ref, .reports) →
        ∃ now, (e.after (earlier ++ [happening])).run? ref = some now ∧
          now.stage = .reporting ∧ now.stopped = false ∧
          now.executed = (deeds.filterMap Deed.played?).length) ∧
      (∀ stopped, r.stage = .ended (.finished stopped) →
        (∀ mishap, .complains mishap ∉ deeds) ∧ (.reports ∈ deeds ↔ stopped = false)) ∧
      (∀ mishap later, mishaps = mishap :: later →
        (∃ before, deeds = before ++ [.complains mishap] ∧ ∀ other, .complains other ∉ before) ∧
        later.length ≤ 1 ∧
        ∀ how, r.stage = .ended how → how = .raised (later.head?.getD mishap)) ∧
      (∀ earlier news later, history = earlier ++ .told ref news :: later →
        news.mishap?.isSome = true →
        deedsBy ref ((start.after (earlier ++ [.told ref news])).deeds later) = []) ∧
      (mishaps = [] → (∀ mishap, .complains mishap ∉ deeds) ∧
        ∀ mishap, r.stage ≠ .ended (.raised mishap)) ∧
      (∀ (busy : Engine σ) other dropped, busy.executing = true →
        busy.effect (.arrived other dropped) = busy ∧
        busy.deed? (.arrived other dropped) = none) ∧
      (r.isOver = true →
        ((start.after history).executing = false ∧ (start.after history).active = none) ∨
        ∃ newer, (start.after history).active = some newer ∧ ref < newer) := by
  intro ref start deeds mishaps
  obtain ⟨r, known, heralds⟩ := heralds_after reached free allowed
  have whole : e.allows (.arrived subject script :: history) = true :=
    (allows_cons e _ history).mpr ⟨rfl, allowed⟩
  refine ⟨r, known, heralds.count_reports_le, ?_, ?_, ?_, ?_, ?_, ?_, ?_⟩
  · intro earlier happening later split reports
    obtain ⟨now, knownNow, standing, unstopped, counted⟩ :=
      reports_all reached free allowed split reports
    rw [begunBy_eq] at counted
    exact ⟨now, knownNow, standing, unstopped, counted⟩
  · intro stopped ended
    rw [ended] at heralds
    exact heralds.of_finished
  · intro mishap later wrong
    rw [show mishapsOf (newsFor e.entries.length history) = mishap :: later from wrong] at heralds
    exact heralds.of_mishap
  · intro earlier news later split wrong
    exact silent_after_mishap (reached.sound.arrived subject script) (split ▸ allowed) wrong
  · intro sound
    rw [show mishapsOf (newsFor e.entries.length history) = [] from sound] at heralds
    exact heralds.of_sound
  · intro busy other dropped executing
    exact ⟨effect_arrived_of_executing busy other dropped executing, by simp [deed?, executing]⟩
  · intro finished
    exact (reached.after whole).released known finished

/-- A run of nothing reports at once. Whoever takes the report stops the engine and fails, and a
newer run begins before the complaint fails as well. -/
def tumbling : List (Happening String) :=
  [.stopped, .told 0 (.failed (.host "full")), .arrived "rogue" [{ id := "sneak" }],
    .told 0 (.failed (.host "gone"))]

/-- The run has reported and complained once, it ends with the second mishap, and its end leaves the
guard to the newer run. -/
theorem notices_tell_the_end_tumbling :
    let start := ({} : Engine String).effect (.arrived "hero" [])
    start.allows tumbling = true ∧
    ∃ r, (start.after tumbling).run? 0 = some r ∧
      r.stage = .ended (.raised (.host "gone")) ∧
      deedsBy 0 (({} : Engine String).deeds (.arrived "hero" [] :: tumbling)) =
        [.reports, .complains (.host "full")] ∧
      ∃ newer, (start.after tumbling).active = some newer ∧ 0 < newer := by
  intro start
  have allowed : start.allows tumbling = true := by decide +kernel
  obtain ⟨r, known, _, _, _, wrong, _, _, _, released⟩ :=
    notices_tell_the_end (e := {}) ⟨[], rfl, rfl⟩ rfl allowed
  have finished : ((start.after tumbling).run? 0).map (·.isOver) = some true := by decide +kernel
  rw [show (start.after tumbling).run? 0 = some r from known] at finished
  have held : (start.after tumbling).executing = true := by decide +kernel
  obtain ⟨_, _, ends⟩ := wrong (.host "full") [.host "gone"] (by decide)
  have ended : ∃ how, r.stage = .ended how := by
    cases standing : r.stage <;> simp [Run.isOver, standing] at finished
    exact ⟨_, rfl⟩
  obtain ⟨how, standing⟩ := ended
  refine ⟨allowed, r, known, ?_, by decide +kernel, ?_⟩
  · rw [standing, ends how standing]
    rfl
  · rcases released (Option.some.inj finished) with ⟨unheld, _⟩ | newer
    · rw [show (start.after tumbling).executing = false from unheld] at held
      cases held
    · exact newer

end Engine

end TurnScript
