import TurnScript.Proofs.Session.Progress
import TurnScript.Proofs.Session.Quiet

/-!
# Telling the listeners of a turn

The listeners of a turn are told one after the other, in the order in which they are listed, and
each of them once. A listener can have a run of its own, which is held and taken up; the next one is
told only when that run is over. If one fails, no further one is told.
-/

namespace TurnScript.Session

variable {s next : Session} {ref : CombatRef} {token : TokenRef}

/-- The turns that listeners have been told of from one session to a later one. -/
def turnsSince (before after : Session) : List (Nat × String) :=
  after.turnsTold.take (after.turnsTold.length - before.turnsTold.length)

theorem turnsSince_of_append {more : List (Nat × String)}
    (told : next.turnsTold = more ++ s.turnsTold) : turnsSince s next = more := by
  rw [turnsSince, told, List.length_append, Nat.add_sub_cancel, List.take_left]

theorem turnsSince_of_same (silent : next.turnsTold = s.turnsTold) : turnsSince s next = [] :=
  turnsSince_of_append silent

/-- How far the listeners of a turn have been told, and what they have been told. -/
inductive Tells (listeners : List Listener) (token : TokenRef) (turn : Nat × String) :
    ErrandStanding → List (Nat × String) → Prop
  /-- One is being told, and all those before it have been. -/
  | listening {already rest : List Listener} {now : Listener} (run : RunRef) (hold : Hold)
      (split : listeners = already ++ now :: rest) :
      Tells listeners token turn (.held (.listening token rest run hold))
        (List.replicate (already.length + 1) turn)
  /-- One has failed, and no further one is told. -/
  | failed {already rest : List Listener} {now : Listener} (failure : Failure)
      (split : listeners = already ++ now :: rest) :
      Tells listeners token turn (.over (.error failure))
        (List.replicate (already.length + 1) turn)
  | done : Tells listeners token turn (.over (.ok (.turnOf (some token))))
      (List.replicate listeners.length turn)

/-- What telling one listener does to a session, as far as it is about combats. -/
structure TellsOne (s next : Session) (turn : Nat × String) : Prop where
  combats : next.combats = s.combats
  told : next.turnsTold = turn :: s.turnsTold
  ids : s.table.board.KeepsIds next.table.board

theorem tellsOne_tellListener (s : Session) (round : Nat) (token : TokenRef)
    (listener : Listener) :
    s.TellsOne (s.tellListener round token listener).1 (round, (s.token token).id) := by
  have emitted : s.TellsOne (s.emit (.turnBegan round (s.token token).id))
      (round, (s.token token).id) := ⟨rfl, rfl, .refl _⟩
  unfold tellListener
  dsimp only
  split
  · exact emitted
  · split
    · have quiet := (s.emit (.turnBegan round (s.token token).id)).quiet_hearTurn token
      exact ⟨quiet.combats.trans emitted.combats, quiet.told.trans emitted.told,
        emitted.ids.trans quiet.ids⟩
    · exact emitted

theorem replicate_append_singleton (count : Nat) (turn : Nat × String)
    (more : List (Nat × String)) :
    more ++ [turn] ++ List.replicate count turn = more ++ List.replicate (count + 1) turn := by
  rw [List.append_assoc, List.singleton_append, List.replicate_succ]

/-- A session that has come along with the telling of a turn: of that turn alone more listeners have
been told. -/
structure KeepsTelling (s : Session) (already : List (Nat × String)) (listeners : List Listener)
    (token : TokenRef) (turn : Nat × String) (piece : Session × ErrandStanding) : Prop where
  combats : piece.1.combats = s.combats
  ids : s.table.board.KeepsIds piece.1.table.board
  told : ∃ more, piece.1.turnsTold = more ++ s.turnsTold ∧
    Tells listeners token turn piece.2 (more ++ already)

/-- The listeners that are still to be told of the current turn are told one after the other. -/
theorem keepsTelling_tellListeners {listeners rest : List Listener} (already : List Listener)
    (s : Session) (split : listeners = already ++ rest)
    (current : (s.combat ref).current = some token) :
    s.KeepsTelling (List.replicate already.length ((s.combat ref).round, (s.token token).id))
      listeners token ((s.combat ref).round, (s.token token).id)
      (tellListeners ref token s rest) := by
  induction rest generalizing s already with
  | nil =>
    rw [List.append_nil] at split
    refine ⟨rfl, .refl _, [], rfl, ?_⟩
    unfold tellListeners
    rw [current, ← split]
    exact .done
  | cons now rest inductionHypothesis =>
    have one := s.tellsOne_tellListener (s.combat ref).round token now
    unfold tellListeners
    generalize s.tellListener (s.combat ref).round token now = heard at one ⊢
    obtain ⟨next, hearing⟩ := heard
    cases hearing with
    | done =>
      have same : next.combat ref = s.combat ref := by rw [combat, one.combats, combat]
      have named : (next.token token).id = (s.token token).id := one.ids token
      obtain ⟨combats, ids, more, told, tells⟩ :=
        inductionHypothesis (already ++ [now]) next (split.trans (List.append_cons _ _ _))
          (by rw [same, current])
      refine ⟨combats.trans one.combats, one.ids.trans ids,
        more ++ [((s.combat ref).round, (s.token token).id)], ?_, ?_⟩
      · rw [told, one.told, List.append_assoc, List.singleton_append]
      · rw [same, named, List.length_append, List.length_singleton] at tells
        rwa [replicate_append_singleton]
    | failed failure =>
      exact ⟨one.combats, one.ids, [_], one.told, .failed failure split⟩
    | held run hold =>
      exact ⟨one.combats, one.ids, [_], one.told, .listening run hold split⟩

/-- A listener that has been told goes on, and then the next ones are told. -/
theorem keepsTelling_takeUpErrand {listeners already rest : List Listener} {now : Listener}
    {run : RunRef} {hold : Hold} {errand : Errand} (split : listeners = already ++ now :: rest)
    (current : (s.combat ref).current = some token) (rested : Bool) :
    s.KeepsTelling (List.replicate (already.length + 1) ((s.combat ref).round, (s.token token).id))
      listeners token ((s.combat ref).round, (s.token token).id)
      (s.takeUpErrand ref errand rested (.listening token rest run hold)) := by
  have quiet : s.Quiet (hearRun run (s.takeUp run rested hold)).1 :=
    quiet_hearRun (s.quiet_takeUp run rested hold)
  simp only [takeUpErrand]
  generalize hearRun run (s.takeUp run rested hold) = heard at quiet ⊢
  obtain ⟨next, hearing⟩ := heard
  cases hearing with
  | done =>
    have same : next.combat ref = s.combat ref := by rw [combat, quiet.combats, combat]
    have named : (next.token token).id = (s.token token).id := quiet.ids token
    have isCurrent : (next.combat ref).current = some token := by rw [same, current]
    obtain ⟨combats, ids, more, told, tells⟩ := keepsTelling_tellListeners (already ++ [now]) next
      (split.trans (List.append_cons _ _ _)) isCurrent
    rw [same, named, List.length_append, List.length_singleton] at tells
    rw [quiet.told] at told
    exact ⟨combats.trans quiet.combats, quiet.ids.trans ids, more, told, tells⟩
  | failed failure =>
    exact ⟨quiet.combats, quiet.ids, [], quiet.told, .failed failure split⟩
  | held run hold =>
    exact ⟨quiet.combats, quiet.ids, [], quiet.told, .listening run hold split⟩

end TurnScript.Session
