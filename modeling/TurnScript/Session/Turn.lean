import TurnScript.Session.Course
import TurnScript.Store.Queue

/-!
# Turns

When a token's turn begins, its stored queue is run: if the turn is a new one, the host may
drive the token, and the queue is enabled and not empty. A queue that cannot be loaded is
told to the host and runs nothing; a failure that is not foreseen goes to the caller.
-/

namespace TurnScript.Session

/-- Tell the host of a failure of the archive that callers expect; others are handed on. -/
def reportStore (s : Session) (subject : Token) (error : StoreError) :
    Session × Except Failure (Option (List Action)) :=
  if error.isExpected then
    match s.notifyError subject error.message with
    | (s, none) => (s, .ok none)
    | (s, some mishap) => (s, .error (.mishap mishap))
  else (s, .error (.store error))

/-- The script to run for a stored queue, if it is enabled and not empty. -/
def scriptOf (s : Session) (subject : Token) : Session × Except Failure (Option (List Action)) :=
  match s.archive.isEnabled subject.id with
  | (.error error, archive) => { s with archive }.reportStore subject error
  | (.ok false, archive) => ({ s with archive }, .ok none)
  | (.ok true, archive) => match archive.sortedQueue subject.id with
    | (.error error, archive) => { s with archive }.reportStore subject error
    | (.ok actions, archive) =>
      ({ s with archive }, .ok (if actions.isEmpty then none else some actions))

/-- The script to run when a turn of a token begins. -/
def scriptOfTurn (s : Session) (subject : TokenRef) (isNew : Bool) :
    Session × Except Failure (Option (List Action)) :=
  if isNew && (s.token subject).isAmong s.host.owned then s.scriptOf (s.token subject)
  else (s, .ok none)

end TurnScript.Session
