import TurnScript.Proofs.Engine.SingleFlight
import TurnScript.Session.Course

/-!
# Runs that are held

Every run of a session that is not over is held by someone: by the call that began it, or by the
errand whose listener did. Whoever holds it knows in what, a pause or the use of an action, and
the run stands where it waits for just that. One run at most is loose, namely the one that is being
answered right now.
-/

namespace TurnScript

/-- Whether a run waits for the end of what it is held in. -/
def Run.fits (r : Run) : Hold → Bool
  | .pause => match r.stage with
    | .pacing .. | .settling _ => true
    | _ => false
  | .call _ => r.played?.isSome

theorem Run.unfinished_of_fits {r : Run} {hold : Hold} (fits : r.fits hold = true) :
    r.isOver = false ∧ r.isAsking = false := by
  cases hold <;> cases standing : r.stage <;>
    simp [Run.fits, Run.played?, standing] at fits <;> simp [Run.isOver, Run.isAsking, standing]

namespace Engine

variable {σ : Type} {e middle next : Engine σ} {ref : RunRef} {r : Run} {loose : Option RunRef}
  {hold : Hold} {holds others : List (RunRef × Hold)} {news : News}

/-- A state of an engine that some history leads to. -/
def Comes (e next : Engine σ) : Prop :=
  ∃ history : List (Happening σ), e.allows history = true ∧ e.after history = next

theorem Comes.refl (e : Engine σ) : e.Comes e := ⟨[], rfl, rfl⟩

theorem Comes.trans (first : e.Comes middle) (second : middle.Comes next) : e.Comes next := by
  obtain ⟨earlier, allowedEarlier, rfl⟩ := first
  obtain ⟨later, allowedLater, rfl⟩ := second
  exact ⟨earlier ++ later, (allows_append e earlier later).mpr ⟨allowedEarlier, allowedLater⟩,
    after_append e earlier later⟩

theorem Comes.of_permits (happening : Happening σ) (permitted : e.permits happening = true) :
    e.Comes (e.effect happening) :=
  ⟨[happening], by simpa [allows] using permitted, rfl⟩

theorem Reached.comes (reached : e.Reached) (comes : e.Comes next) : next.Reached :=
  (show ({} : Engine σ).Comes e from reached).trans comes

/-- A run that is known stays known, and a stopped one stays stopped. -/
theorem Comes.keeps (comes : e.Comes next) (known : e.run? ref = some r) :
    ∃ later, next.run? ref = some later ∧ (r.stopped = true → later.stopped = true) := by
  obtain ⟨history, allowed, rfl⟩ := comes
  obtain ⟨later, knownLater, leads⟩ := leads_after known allowed
  exact ⟨later, knownLater, leads.stopped⟩

/-- The runs of an engine that are not over are those that are held, and the loose one. -/
structure Minds (e : Engine σ) (loose : Option RunRef) (holds : List (RunRef × Hold)) : Prop where
  reached : e.Reached
  distinct : (loose.toList ++ holds.map (·.1)).Nodup
  fits : ∀ ref hold, (ref, hold) ∈ holds → ∃ r, e.run? ref = some r ∧ r.fits hold = true
  held : ∀ ref r, e.run? ref = some r → r.isOver = false → ref ∈ loose.toList ++ holds.map (·.1)

/-- In what order the holders are named does not matter. -/
theorem Minds.perm (minds : e.Minds loose holds) (same : holds.Perm others) :
    e.Minds loose others where
  reached := minds.reached
  distinct := ((same.map _).append_left _).nodup minds.distinct
  fits ref hold member := minds.fits ref hold (same.mem_iff.mpr member)
  held ref r known unfinished :=
    ((same.map _).append_left _).mem_iff.mp (minds.held ref r known unfinished)

/-- Someone lets go of a run to have it answered. -/
theorem Minds.take (minds : e.Minds none ((ref, hold) :: holds)) : e.Minds (some ref) holds where
  reached := minds.reached
  distinct := minds.distinct
  fits other hold member := minds.fits other hold (List.mem_cons_of_mem _ member)
  held := minds.held

/-- Someone holds the run that was loose. -/
theorem Minds.secure (minds : e.Minds (some ref) holds) (known : e.run? ref = some r)
    (fits : r.fits hold = true) : e.Minds none ((ref, hold) :: holds) where
  reached := minds.reached
  distinct := minds.distinct
  fits other otherHold member := by
    rcases List.mem_cons.mp member with same | member
    · obtain ⟨rfl, rfl⟩ := Prod.mk.inj same
      exact ⟨r, known, fits⟩
    · exact minds.fits other otherHold member
  held := minds.held

/-- A run that is over need not be held. -/
theorem Minds.dismiss (minds : e.Minds (some ref) holds) (known : e.run? ref = some r)
    (finished : r.isOver = true) : e.Minds none holds where
  reached := minds.reached
  distinct := (List.nodup_cons.mp minds.distinct).2
  fits := minds.fits
  held other run knownOther unfinished := by
    rcases List.mem_cons.mp (minds.held other run knownOther unfinished) with rfl | member
    · rw [known, Option.some.injEq] at knownOther
      subst knownOther
      rw [finished] at unfinished
      cases unfinished
    · exact member

/-- Where the loose run asks no condition, none does. -/
theorem Minds.calm (minds : e.Minds loose holds)
    (quiet : ∀ ref r, loose = some ref → e.run? ref = some r → r.isAsking = false) :
    e.isCalm = true := by
  apply List.all_eq_true.mpr
  intro entry member
  obtain ⟨ref, _, found⟩ := List.getElem_of_mem member
  have known : e.run? ref = some entry.run := by
    rw [run?, List.getElem?_eq_some_iff.mpr ⟨_, found⟩, Option.map_some]
  cases finished : entry.run.isOver with
  | true => cases standing : entry.run.stage <;> simp_all [Run.isOver, Run.isAsking]
  | false =>
    rcases List.mem_append.mp (minds.held ref entry.run known finished) with isLoose | isHeld
    · simp [quiet ref entry.run (by simpa using isLoose) known]
    · obtain ⟨⟨other, hold⟩, member, rfl⟩ := List.mem_map.mp isHeld
      obtain ⟨run, knownRun, fits⟩ := minds.fits other hold member
      rw [known, Option.some.injEq] at knownRun
      subst knownRun
      simp [(Run.unfinished_of_fits fits).2]

/-- A stop leaves all runs where they stand. -/
theorem Minds.stop (minds : e.Minds loose holds) (calm : e.isCalm = true) :
    e.stop.Minds loose holds where
  reached := minds.reached.comes (.of_permits .stopped calm)
  distinct := minds.distinct
  fits ref hold member := by
    obtain ⟨r, known, fits⟩ := minds.fits ref hold member
    have stopped := run?_stopped e ref
    rw [known] at stopped
    split at stopped
    · exact ⟨r.halted, stopped, by cases hold <;> exact fits⟩
    · exact ⟨r, stopped, fits⟩
  held ref r known unfinished := by
    have stopped := run?_stopped e ref
    rw [show (e.effect .stopped).run? ref = some r from known] at stopped
    split at stopped
    · obtain ⟨before, knownBefore, rfl⟩ := Option.map_eq_some_iff.mp stopped.symm
      exact minds.held ref before knownBefore unfinished
    · exact minds.held ref r stopped.symm unfinished

/-- The loose run is told its news. -/
theorem Minds.told (minds : e.Minds (some ref) holds)
    (permitted : e.permits (.told ref news) = true) :
    (e.effect (.told ref news)).Minds (some ref) holds where
  reached := minds.reached.comes (.of_permits _ permitted)
  distinct := minds.distinct
  fits other hold member := by
    have distinct : other ≠ ref := by
      rintro rfl
      exact (List.nodup_cons.mp minds.distinct).1 (List.mem_map.mpr ⟨_, member, rfl⟩)
    rw [e.run?_told_ne news distinct]
    exact minds.fits other hold member
  held other r known unfinished := by
    by_cases same : other = ref
    · simp [same]
    · rw [e.run?_told_ne news same] at known
      exact minds.held other r known unfinished

/-- The run of a script that arrives is loose. -/
theorem Minds.arrived (minds : e.Minds none holds) (free : e.executing = false) (subject : σ)
    (script : List Action) :
    (e.effect (.arrived subject script)).Minds (some e.entries.length) holds where
  reached := minds.reached.comes (.of_permits (.arrived subject script) rfl)
  distinct := by
    refine List.nodup_cons.mpr ⟨?_, minds.distinct⟩
    intro member
    obtain ⟨⟨other, hold⟩, member, same⟩ := List.mem_map.mp member
    obtain ⟨r, known, _⟩ := minds.fits other hold member
    have unknown : e.run? other = none :=
      (run?_eq_none_iff e other).mpr (Nat.le_of_eq same.symm)
    rw [known] at unknown
    cases unknown
  fits other hold member := by
    obtain ⟨r, known, fits⟩ := minds.fits other hold member
    refine ⟨r, ?_, fits⟩
    rw [run?_arrived e subject script other free]
    split
    · next fresh =>
      rw [(run?_eq_none_iff e other).mpr (Nat.le_of_eq fresh.symm)] at known
      cases known
    · exact known
  held other r known unfinished := by
    rw [run?_arrived e subject script other free] at known
    split at known
    · next fresh => simp [fresh]
    · exact List.mem_cons_of_mem _ (minds.held other r known unfinished)

end Engine
end TurnScript
