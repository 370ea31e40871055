import TurnScript.Engine.Guard
import TurnScript.Proofs.Engine.News

/-!
# Histories of an engine

Between two moments at which nothing of an engine's own is under way, anything can happen to it:
a script arrives, someone stops it or asks for its state, a run is told its news. A history is a
list of such happenings in the order of time, for any number of runs and in any interleaving. Only
what a run waits for is told to it; everything else is up to whoever is around the engine, so a
dispatch may take as long as it likes and may come to any outcome.

One thing is left out. A condition is asked and answered in one go: the range checker answers and
does nothing else, so no stop comes between the question and the verdict.
-/

namespace TurnScript

/-- Something that happens at an engine. -/
inductive Happening (σ : Type) where
  | arrived (subject : σ) (script : List Action)
  | stopped
  | queried
  | told (ref : RunRef) (news : News)
  deriving Repr, DecidableEq

/-- A run that has been stopped. -/
def Run.halted (r : Run) : Run :=
  { r with stopped := true, unpaced := true }

namespace Engine

variable {σ : Type}

/-- The ledger of a run. -/
def ledger (e : Engine σ) (ref : RunRef) : Ledger :=
  ((e.run? ref).map (·.ledger)).getD []

/-- The engine after something has happened. -/
def effect (e : Engine σ) : Happening σ → Engine σ
  | .arrived subject script => ((e.submit subject script).map (·.2)).getD e
  | .stopped => e.stop
  | .queried => e
  | .told ref news => e.tell ref (news.reply (e.ledger ref))

/-- Whether no run waits for a verdict. -/
def isCalm (e : Engine σ) : Bool :=
  e.entries.all fun entry => !entry.run.isAsking

/-- Whether something can happen. -/
def permits (e : Engine σ) : Happening σ → Bool
  | .arrived .. | .queried => true
  | .stopped => e.isCalm
  | .told ref news => (e.run? ref).any (·.awaits news)

/-- The engine after a history. -/
def after (e : Engine σ) (history : List (Happening σ)) : Engine σ :=
  history.foldl effect e

/-- Whether a history can happen. -/
def allows (e : Engine σ) : List (Happening σ) → Bool
  | [] => true
  | happening :: rest => e.permits happening && (e.effect happening).allows rest

/-- Whether an engine can come to a state: a history that can happen leads there from the start. -/
def Reached (e : Engine σ) : Prop :=
  ∃ history : List (Happening σ), ({} : Engine σ).allows history = true ∧
    ({} : Engine σ).after history = e

/-- The deed that comes with something that happens, and the run that does it. -/
def deed? (e : Engine σ) : Happening σ → Option (RunRef × Deed)
  | .arrived _ script =>
    if e.executing then none else (Run.begin script).deed?.map (e.entries.length, ·)
  | .stopped | .queried => none
  | .told ref news => (((e.effect (.told ref news)).run? ref).bind Run.deed?).map (ref, ·)

/-- The deeds of a history, in the order of time. -/
def deeds (e : Engine σ) : List (Happening σ) → List (RunRef × Deed)
  | [] => []
  | happening :: rest => (e.deed? happening).toList ++ (e.effect happening).deeds rest

/-! ## Histories in sequence -/

@[simp] theorem after_nil (e : Engine σ) : e.after [] = e := rfl

@[simp] theorem after_cons (e : Engine σ) (happening : Happening σ) (rest : List (Happening σ)) :
    e.after (happening :: rest) = (e.effect happening).after rest := rfl

@[simp] theorem after_append (e : Engine σ) (earlier later : List (Happening σ)) :
    e.after (earlier ++ later) = (e.after earlier).after later := by
  simp [after]

theorem allows_cons (e : Engine σ) (happening : Happening σ) (rest : List (Happening σ)) :
    e.allows (happening :: rest) ↔ e.permits happening ∧ (e.effect happening).allows rest := by
  simp [allows]

theorem allows_append (e : Engine σ) (earlier later : List (Happening σ)) :
    e.allows (earlier ++ later) ↔ e.allows earlier ∧ (e.after earlier).allows later := by
  induction earlier generalizing e with
  | nil => simp [allows]
  | cons happening rest inductionHypothesis =>
    simp only [List.cons_append, allows_cons, inductionHypothesis, after_cons, and_assoc]

/-- What an engine can come to from a state that it can come to, it can come to. -/
theorem Reached.after {e : Engine σ} {history : List (Happening σ)} (reached : e.Reached)
    (allowed : e.allows history = true) : (e.after history).Reached := by
  obtain ⟨earlier, allowedEarlier, rfl⟩ := reached
  exact ⟨earlier ++ history, (allows_append _ earlier history).mpr ⟨allowedEarlier, allowed⟩,
    after_append _ earlier history⟩

theorem deeds_append (e : Engine σ) (earlier later : List (Happening σ)) :
    e.deeds (earlier ++ later) = e.deeds earlier ++ (e.after earlier).deeds later := by
  induction earlier generalizing e with
  | nil => rfl
  | cons happening rest inductionHypothesis =>
    simp only [List.cons_append, deeds, inductionHypothesis, after_cons, List.append_assoc]

/-- What the first happening establishes and every later one preserves holds after a history. -/
theorem after_induction {motive : Engine σ → Prop} {e : Engine σ} {history : List (Happening σ)}
    (start : motive e) (step : ∀ e happening, motive e → e.permits happening →
      motive (e.effect happening))
    (allowed : e.allows history) : motive (e.after history) := by
  induction history generalizing e with
  | nil => exact start
  | cons happening rest inductionHypothesis =>
    obtain ⟨permitted, allowedRest⟩ := (allows_cons e happening rest).mp allowed
    exact inductionHypothesis (step e happening start permitted) allowedRest

/-! ## What a happening does to a run -/

/-- A run is known exactly if its number is below that of the next one. -/
theorem run?_eq_none_iff (e : Engine σ) (ref : RunRef) :
    e.run? ref = none ↔ e.entries.length ≤ ref := by
  simp [run?]

/-- A run that is known has an entry with its subject. -/
theorem exists_entry {e : Engine σ} {ref : RunRef} {r : Run} (known : e.run? ref = some r) :
    ∃ subject, e.entries[ref]? = some ⟨subject, r⟩ := by
  obtain ⟨⟨subject, run⟩, found, rfl⟩ := Option.map_eq_some_iff.mp known
  exact ⟨subject, found⟩

theorem run?_change (e : Engine σ) (ref other : RunRef) (f : Run → Run) :
    (e.change ref f).run? other = if ref = other then (e.run? other).map f else e.run? other := by
  by_cases same : ref = other
  · subst same
    cases found : e.entries[ref]? <;> simp [run?, change, found]
  · cases found : e.entries[other]? <;> simp [run?, change, found, same]

@[simp] theorem run?_release (e : Engine σ) (ref other : RunRef) :
    (e.release ref).run? other = e.run? other := by
  unfold release
  split <;> rfl

theorem run?_told (e : Engine σ) (ref other : RunRef) (news : News) :
    (e.effect (.told ref news)).run? other =
      if ref = other then (e.run? other).map (·.hear (e.isActive ref) news)
      else e.run? other := by
  simp only [effect, tell, run?_release, run?_change]
  split
  · next same =>
    subst same
    cases found : e.run? ref <;> simp [Run.hear, ledger, found]
  · rfl

/-- News for one run leave every other run as it is. -/
theorem run?_told_ne (e : Engine σ) {ref other : RunRef} (news : News) (distinct : other ≠ ref) :
    (e.effect (.told ref news)).run? other = e.run? other := by
  rw [run?_told, if_neg (Ne.symm distinct)]

theorem run?_stopped (e : Engine σ) (other : RunRef) :
    (e.effect .stopped).run? other =
      if e.active = some other then (e.run? other).map Run.halted else e.run? other := by
  cases held : e.active with
  | none => simp [effect, stop, held, run?]
  | some ref =>
    have stopping : (e.effect .stopped).run? other = (e.change ref Run.halted).run? other := by
      simp only [effect, stop, held]
      rfl
    rw [stopping, run?_change]
    simp only [Option.some.injEq]

theorem run?_arrived (e : Engine σ) (subject : σ) (script : List Action) (other : RunRef)
    (free : e.executing = false) :
    (e.effect (.arrived subject script)).run? other =
      if other = e.entries.length then some (Run.begin script) else e.run? other := by
  by_cases fresh : other = e.entries.length
  · simp [effect, submit, free, run?, fresh]
  · by_cases known : other < e.entries.length
    · simp [effect, submit, free, run?, fresh, List.getElem?_append_left known]
    · have beyond : e.entries.length + 1 ≤ other :=
        Nat.lt_of_le_of_ne (Nat.not_lt.mp known) (Ne.symm fresh)
      have unknown : (e.entries ++ [⟨subject, Run.begin script⟩])[other]? = none :=
        List.getElem?_eq_none (by simpa using beyond)
      have before : e.entries[other]? = none := List.getElem?_eq_none (Nat.not_lt.mp known)
      rw [if_neg fresh]
      simp only [effect, submit, free, run?, Bool.false_eq_true, if_false, Option.map_some,
        Option.getD_some, unknown, before]

/-- The run of a script that arrives at a free engine has just begun. -/
theorem run?_begun {e : Engine σ} (subject : σ) (script : List Action)
    (free : e.executing = false) :
    (e.effect (.arrived subject script)).run? e.entries.length = some (Run.begin script) := by
  rw [run?_arrived e subject script _ free, if_pos rfl]

/-- A script that arrives while a run is being executed is dropped. -/
theorem effect_arrived_of_executing (e : Engine σ) (subject : σ) (script : List Action)
    (busy : e.executing = true) : e.effect (.arrived subject script) = e := by
  simp [effect, submit, busy]

/-- All that can befall a run that an engine knows. -/
inductive Befalls (e : Engine σ) (ref : RunRef) (r : Run) : Happening σ → Run → Prop where
  | spared {happening} (untold : ∀ news, happening ≠ .told ref news)
      (unstopped : happening = .stopped → e.active ≠ some ref) : Befalls e ref r happening r
  | halted (held : e.active = some ref) : Befalls e ref r .stopped r.halted
  | moved {news next} (moves : r.Moves (e.isActive ref) news next) :
      Befalls e ref r (.told ref news) next

/-- A known run stays known, and one of the listed things befalls it. -/
theorem befalls {e : Engine σ} {ref : RunRef} {r : Run} {happening : Happening σ}
    (known : e.run? ref = some r) (permitted : e.permits happening) :
    ∃ next, (e.effect happening).run? ref = some next ∧ Befalls e ref r happening next := by
  cases happening with
  | arrived subject script =>
    refine ⟨r, ?_, .spared (by simp) (by simp)⟩
    cases busy : e.executing with
    | true => rw [effect_arrived_of_executing e subject script busy]; exact known
    | false =>
      have old : ref ≠ e.entries.length := by
        intro fresh
        have unknown : e.run? ref = none := (run?_eq_none_iff e ref).mpr (Nat.le_of_eq fresh.symm)
        rw [unknown] at known
        cases known
      rw [run?_arrived e subject script ref busy, if_neg old]
      exact known
  | stopped =>
    by_cases held : e.active = some ref
    · exact ⟨r.halted, by simp [run?_stopped, held, known], .halted held⟩
    · exact ⟨r, by simp [run?_stopped, held, known], .spared (by simp) fun _ => held⟩
  | queried => exact ⟨r, known, .spared (by simp) (by simp)⟩
  | told other news =>
    by_cases same : other = ref
    · subst same
      have awaited : r.awaits news := by simpa [permits, known] using permitted
      exact ⟨_, by rw [run?_told, if_pos rfl, known]; rfl,
        .moved (Run.moves_of_awaits (e.isActive other) awaited)⟩
    · exact ⟨r, by rw [run?_told, if_neg same, known],
        .spared (fun _ told => same (by cases told; rfl)) (by simp)⟩

/-- News that can be told are news for a known run, which takes them. -/
theorem moves_of_permits {e : Engine σ} {ref : RunRef} {news : News}
    (permitted : e.permits (.told ref news)) :
    ∃ r next, e.run? ref = some r ∧ (e.effect (.told ref news)).run? ref = some next ∧
      r.Moves (e.isActive ref) news next := by
  obtain ⟨r, known, awaited⟩ : ∃ r, e.run? ref = some r ∧ r.awaits news = true := by
    simpa [permits, Option.any_eq_true] using permitted
  obtain ⟨next, knownNext, befallen⟩ := befalls known permitted
  cases befallen with
  | moved moves => exact ⟨r, next, known, knownNext, moves⟩
  | spared untold => exact absurd rfl (untold news)

/-- A run that was not known before has just begun, on an engine that was free. -/
theorem run?_fresh {e : Engine σ} {ref : RunRef} {next : Run} {happening : Happening σ}
    (unknown : e.run? ref = none) (known : (e.effect happening).run? ref = some next) :
    ∃ subject script, happening = .arrived subject script ∧ e.executing = false ∧
      ref = e.entries.length ∧ next = Run.begin script := by
  cases happening with
  | arrived subject script =>
    cases busy : e.executing with
    | true =>
      rw [effect_arrived_of_executing e subject script busy, unknown] at known
      cases known
    | false =>
      rw [run?_arrived e subject script ref busy] at known
      split at known
      · next fresh => exact ⟨subject, script, rfl, rfl, fresh, (Option.some.inj known).symm⟩
      · rw [unknown] at known
        cases known
  | stopped =>
    rw [run?_stopped, unknown] at known
    simp at known
  | queried =>
    rw [show e.effect .queried = e from rfl, unknown] at known
    cases known
  | told other news =>
    rw [run?_told, unknown] at known
    simp at known

end Engine
end TurnScript
