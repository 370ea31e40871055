import TurnScript.Proofs.Session.Use
import TurnScript.Proofs.Store.Loading

/-!
# Turns on corrupt rows

When the turn of a token begins whose row holds no text of a queue, its host is told once that the
queue could not be loaded, and no run begins. Where the text gets past the refusal, nothing is told:
a text of a value that holds nothing is taken for a queue without actions, and the failures that
nobody foresees go to the caller.
-/

namespace TurnScript

/-- Whether an event tells of a failure, by itself or as a line in the log. -/
def Event.isFailure : Event → Bool
  | .failed _ _ => true
  | .remark line => line.source == "notifications" && line.level == .error
  | _ => false

namespace Session

variable {s next : Session} {subject : Token} {error : String}

/-! ## Telling of a failure -/

/-- How a host is told of a failure: by an event, or by a line in the log if that is all it
keeps. -/
def failureEvent (s : Session) (subject : Token) (error : String) : Event :=
  if s.host.logsNotices then
    .remark ⟨"notifications", .error,
      "Action execution failed for " ++ subject.name ++ ": " ++ error⟩
  else .failed subject.id error

theorem isFailure_failureEvent (s : Session) (subject : Token) (error : String) :
    (s.failureEvent subject error).isFailure = true := by
  unfold failureEvent
  split
  · rfl
  · rfl

/-- A session in which the host has been told of one more failure, and no run has begun. -/
structure TellsOnce (s next : Session) (subject : Token) (error : String) : Prop where
  told : next.trace.filter Event.isFailure =
    s.failureEvent subject error :: s.trace.filter Event.isFailure
  runs : next.engine.entries.length = s.engine.entries.length

/-- A stop begins no run. -/
theorem length_entries_stop {σ : Type} (e : Engine σ) :
    e.stop.entries.length = e.entries.length := by
  unfold Engine.stop
  cases e.active with
  | none => rfl
  | some ref => exact List.length_modify ..

/-- What spares a session begins no run. -/
theorem Spares.runs (spares : s.Spares next) :
    next.engine.entries.length = s.engine.entries.length := by
  rcases spares.engine with same | stopped
  · rw [same]
  · rw [stopped, length_entries_stop]

/-- A stop tells of no failure. -/
theorem failures_stop (s : Session) :
    s.stop.1.trace.filter Event.isFailure = s.trace.filter Event.isFailure := by
  unfold stop
  split
  · rfl
  · split
    · rfl
    · exact List.filter_cons_of_neg (by simp [Event.isFailure])

/-- A notice of a failure tells of it once. -/
theorem tellsOnce_notifyError (s : Session) (subject : Token) (error : String) :
    s.TellsOnce (s.notifyError subject error).1 subject error := by
  have failure := s.isFailure_failureEvent subject error
  refine ⟨?_, (s.spares_notify _ _ _).runs⟩
  unfold notifyError notify
  unfold failureEvent at failure ⊢
  split at failure
  · next logs =>
    rw [if_pos logs, if_pos logs]
    exact List.filter_cons_of_pos failure
  · next tells =>
    rw [if_neg tells, if_neg tells]
    dsimp only
    split
    · rw [failures_stop]
      exact List.filter_cons_of_pos failure
    · exact List.filter_cons_of_pos failure

/-! ## The turn of a token with a row -/

section Turn

variable {ref : TokenRef} {row : Row} (owned : (s.token ref).isAmong s.host.owned = true)
  (stored : s.archive.row? (s.token ref).id = some row)

include owned stored

/-- A turn reports why a row cannot be loaded. -/
theorem scriptOfTurn_of_error {failure : StoreError}
    (fails : (s.archive.queue (s.token ref).id).1 = .error failure) :
    s.scriptOfTurn ref true =
      { s with archive := (s.archive.queue (s.token ref).id).2 }.reportStore (s.token ref)
        failure := by
  rw [Archive.queue_of_row stored] at fails ⊢
  rw [scriptOfTurn, owned, scriptOf, Archive.isEnabled_of_row stored, fails]
  rfl

/-- A turn on a row that cannot be loaded tells of that once, and no run begins. -/
theorem turn_of_load_error
    (fails : (s.archive.queue (s.token ref).id).1 = .error (.load (s.token ref).id)) :
    s.TellsOnce (s.turn ref true).1 (s.token ref) (StoreError.load (s.token ref).id).message ∧
      ((s.turn ref true).2 = .over (.summary none) ∨
        ∃ mishap, (s.turn ref true).2 = .over (.failed (.mishap mishap))) := by
  have tells := tellsOnce_notifyError { s with archive := (s.archive.queue (s.token ref).id).2 }
    (s.token ref) (StoreError.load (s.token ref).id).message
  have script := scriptOfTurn_of_error owned stored fails
  rw [reportStore, StoreError.isExpected, if_pos rfl] at script
  rcases notified : notifyError { s with archive := (s.archive.queue (s.token ref).id).2 }
    (s.token ref) (StoreError.load (s.token ref).id).message with ⟨told, mishap⟩
  rw [notified] at tells script
  have once : s.TellsOnce told (s.token ref) (StoreError.load (s.token ref).id).message :=
    ⟨tells.told, tells.runs⟩
  cases mishap with
  | none =>
    simp only [turn, script]
    exact ⟨once, .inl trivial⟩
  | some mishap =>
    simp only [turn, script]
    exact ⟨once, .inr ⟨mishap, rfl⟩⟩

/-- A turn on a row that fails as nobody foresees tells nothing. -/
theorem turn_of_unexpected_error {failure : StoreError}
    (fails : (s.archive.queue (s.token ref).id).1 = .error failure)
    (unexpected : failure.isExpected = false) :
    s.turn ref true =
      ({ s with archive := (s.archive.queue (s.token ref).id).2 },
        .over (.failed (.store failure))) := by
  rw [turn, scriptOfTurn_of_error owned stored fails, reportStore, unexpected]
  rfl

/-- A turn on a row whose text holds nothing tells nothing. -/
theorem turn_of_void {text : String} (kept : row.actions = (Cell.text text).kept)
    (number : ¬ IsNumberText text) (isVoid : IsVoidText text) :
    s.turn ref true = (s, .over (.summary none)) := by
  have enabled := Archive.isEnabled_of_row stored
  have sorted := Archive.sortedQueue_of_row stored
  rw [kept, Archive.readActions_of_void _ _ number isVoid] at enabled sorted
  have script : s.scriptOfTurn ref true = (s, .ok none) := by
    rw [scriptOfTurn, owned, scriptOf, enabled]
    cases row.enabled.isTruthy with
    | false => rfl
    | true =>
      have none : sortedByOrder [] = [] := List.mergeSort_nil
      simp only [Bool.and_self, if_true, Except.map, sorted, none]
      rfl
  rw [turn, script]

end Turn

/-- Where a text has been put into the column of a row, the three calls that load the row go well or
fail together, and come to what the text tells: the actions of its records, or a reason. Only texts
of queues pass as queues, and all others are refused as queues that cannot be loaded, exactly if the
text does not get past the refusal. When the turn of the token begins, its host is told of a text
that is refused once, and no run begins. Of a text that gets past the refusal nothing is told. -/
theorem corrupt_rows_are_told {s : Session} {ref : TokenRef} {row : Row} {text : String}
    (owned : (s.token ref).isAmong s.host.owned = true)
    (stored : s.archive.row? (s.token ref).id = some row)
    (kept : row.actions = (Cell.text text).kept) :
    let subject := s.token ref
    let loaded := (s.archive.queue subject.id).1
    let later := (s.turn ref true).1
    let answer := (s.turn ref true).2
    Archive.RowTells subject.id text loaded ∧
      (s.archive.sortedQueue subject.id).1 = loaded.map sortedByOrder ∧
      (s.archive.isEnabled subject.id).1 = loaded.map (fun _ => row.enabled.isTruthy) ∧
      (Archive.PassesQueuesOnly subject.id text loaded ↔ ¬ GetsPast text) ∧
      (¬ GetsPast text → ¬ IsQueueText text →
        s.TellsOnce later subject (StoreError.load subject.id).message ∧
          (answer = .over (.summary none) ∨
            ∃ mishap, answer = .over (.failed (.mishap mishap)))) ∧
      (GetsPast text → later.trace = s.trace ∧ later.engine = s.engine) := by
  intro subject loaded later answer
  have isLoaded : loaded = (Archive.readActions s.archive.supply subject.id row.actions).1 :=
    congrArg Prod.fst (Archive.queue_of_row stored)
  have tells : Archive.RowTells subject.id text loaded := by
    rw [isLoaded, kept]
    exact Archive.rowTells_readActions s.archive.supply subject.id text
  refine ⟨tells, ?_, ?_, tells.passesQueuesOnly_iff, ?_, ?_⟩
  · rw [isLoaded, Archive.sortedQueue_of_row stored]
  · rw [isLoaded, Archive.isEnabled_of_row stored]
  · intro notPast noQueue
    obtain ⟨passes, expected⟩ := tells.passesQueuesOnly_iff.mpr notPast
    cases result : loaded with
    | ok actions => exact absurd (passes.mp ⟨actions, result⟩) noQueue
    | error failure =>
      rw [expected failure result] at result
      exact turn_of_load_error owned stored result
  · intro past
    rcases tells.of_getsPast past with ⟨-, isVoid, number⟩ | ⟨failure, failed, unexpected⟩
    · have quiet := turn_of_void owned stored kept number isVoid
      exact ⟨congrArg (·.1.trace) quiet, congrArg (·.1.engine) quiet⟩
    · have quiet := turn_of_unexpected_error owned stored failed unexpected
      exact ⟨congrArg (·.1.trace) quiet, congrArg (·.1.engine) quiet⟩

/-- The row of the hero holds a text. -/
def holding (text : String) : Session :=
  { table := { board := { roster := [{ id := "hero", name := "Hero" }] } }
    archive := { rows := some [("hero", ⟨queueVersion, .whole 1, (Cell.text text).kept⟩)] } }

theorem row?_holding (text : String) :
    (holding text).archive.row? "hero" =
      some ⟨queueVersion, .whole 1, (Cell.text text).kept⟩ :=
  rfl

/-- A text that is no value cannot be loaded, and the host is told so once. -/
theorem corrupt_rows_are_told_broken :
    ((holding "broken").archive.queue "hero").1 = .error (.load "hero") ∧
      (holding "broken").TellsOnce ((holding "broken").turn 0 true).1 ((holding "broken").token 0)
        "Could not load action queue for hero" := by
  have read : Json.read "broken" = .error (.syntactic .value 0 1 1) := by
    decide +kernel
  have noNumber : ¬ IsNumberText "broken" := by
    unfold IsNumberText
    decide
  obtain ⟨noQueue, notVoid⟩ := Archive.not_isQueueText_of_error read
  have notPast : ¬ GetsPast "broken" := by
    rintro (isVoid | ⟨_, overlong⟩ | isNumber)
    · exact notVoid isVoid
    · cases read.symm.trans overlong
    · exact noNumber isNumber
  obtain ⟨-, -, -, passes, tells, -⟩ :=
    @corrupt_rows_are_told (holding "broken") 0 _ "broken" rfl (row?_holding "broken") rfl
  obtain ⟨queues, expected⟩ := passes.mpr notPast
  refine ⟨?_, (tells notPast noQueue).1⟩
  cases loaded : ((holding "broken").archive.queue "hero").1 with
  | ok actions => exact absurd (queues.mp ⟨actions, loaded⟩) noQueue
  | error error =>
    rw [expected error loaded]
    rfl

/-- The text of an empty object is no text of a queue. Yet it passes as a queue without actions, and
the host is told nothing. -/
theorem empty_object_passes :
    let s := holding (Json.text (.obj []))
    ¬ IsQueueText (Json.text (.obj [])) ∧ (s.archive.queue "hero").1 = .ok [] ∧
      s.turn 0 true = (s, .over (.summary none)) := by
  intro s
  have read : Json.read (Json.text (.obj [])) = .ok (.obj []) :=
    Json.read_text Json.isSound_obj_nil.1 rfl
  have isVoid : IsVoidText (Json.text (.obj [])) := by
    refine ⟨.obj [], read, rfl, ?_⟩
    rintro _ ⟨⟩
  have noNumber : ¬ IsNumberText (Json.text (.obj [])) := by
    unfold IsNumberText
    decide
  refine ⟨isVoid.not_isQueueText, ?_, turn_of_void rfl (row?_holding _) rfl noNumber isVoid⟩
  rw [Archive.queue_of_row (row?_holding _), Archive.readActions_of_void _ _ noNumber isVoid]

end Session
end TurnScript
