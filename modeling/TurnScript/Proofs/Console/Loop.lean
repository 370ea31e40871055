import TurnScript.Proofs.Combat.Rolls
import TurnScript.Proofs.Console.Obeying
import TurnScript.Proofs.Session.Progress

/-!
# The command loop

A console takes one input after the other. Between them, and while a roll is waited for, its
background goes on, and its files may be changed from outside. What ends the loop is an input that
closes it, a command that fails as nobody foresees, or a roll that fails.
-/

namespace TurnScript

namespace Console

variable {c opening : Console} {inputs : List Input}

/-! ## Rolls that are waited for -/

section Rolls

variable {others : Session → Session → Prop}

end Rolls

/-! ## What ends the loop -/

/-- A console that has been opened for an encounter: nothing goes on yet, its archive holds some
queues, and its only combat has only the listener that runs the script of every turn. -/
structure Opens (c : Console) : Prop where
  mood : c.mood = .reading
  agenda : c.agenda = { session := c.session }
  archive : ∃ shelves, c.session.archive.Holds shelves
  audiences : c.session.audiences = [[onlyListener]]
  free : c.session.heldForNobody = false
  events : c.session.trace = []

theorem Opens.isBackground (opens : c.Opens) : IsBackground c.agenda := by
  rw [opens.agenda]
  exact ⟨opens.archive, opens.audiences, opens.free, opens.events, rfl,
    fun _ none => (by cases none), fun _ none => (by cases none)⟩

/-- What a console that has been opened can come to by some inputs, the latest first. -/
inductive Plays (opening : Console) : List Input → Console → Prop
  | opened : Plays opening [] opening
  /-- Something goes on in the background, as long as no call is lost there. -/
  | idles {inputs : List Input} {c next : Console} (plays : Plays opening inputs c)
      (reading : c.mood = .reading) (going : c.isLost = false) (idles : c.Idles next) :
      Plays opening inputs next
  /-- The files are changed by others. -/
  | refiled {inputs : List Input} {c : Console} (plays : Plays opening inputs c)
      (reading : c.mood = .reading) (files : Directory) : Plays opening inputs { c with files }
  /-- An input is taken at the prompt. -/
  | obeyed {inputs : List Input} {c : Console} (plays : Plays opening inputs c)
      (prompt : c.IsAtPrompt) (input : Input) (other : input.command ≠ .roll) :
      Plays opening (input :: inputs) (c.take input)
  /-- A roll is called for at the prompt, and then waited for. -/
  | rolled {inputs : List Input} {c : Console} (plays : Plays opening inputs c)
      (prompt : c.IsAtPrompt) (input : Input) (rolls : input.command = .roll) :
      Plays opening (input :: inputs) (c.launch .roll (·.rollInitiative combatRef))

/-- How the loop stands after some inputs, the latest first. -/
inductive Stands (opening : Console) : List Input → Console → Prop
  /-- It goes on. Unless the console is at its prompt, a roll is waited for, or a call is lost,
  which happens only where nobody is alive. -/
  | reading {inputs : List Input} {c : Console} (reading : c.mood = .reading)
      (rolling : c.agenda.isHeld Call.roll.name = true →
        inputs.head?.map Input.command = some .roll)
      (lost : c.isLost = true → IsDeserted c.session) : Stands opening inputs c
  /-- It has ended because the last input closed it, and the engine is free. -/
  | closed {input : Input} {inputs : List Input} {c : Console} (mood : c.mood = .closed)
      (quits : input.command = .quit) (free : c.session.engine.IsFree) :
      Stands opening (input :: inputs) c
  /-- It has ended in a command that failed as nobody foresees. -/
  | broken {input : Input} {inputs : List Input} {before : Console} {failure : Failure}
      (plays : Plays opening inputs before) (prompt : before.IsAtPrompt)
      (breaks : before.Breaks input.command) (mood : (before.take input).mood = .broken failure) :
      Stands opening (input :: inputs) (before.take input)
  /-- It has ended in a roll that failed. -/
  | unrolled {input : Input} {inputs : List Input} {c : Console} {mishap : Mishap}
      (rolls : input.command = .roll) (fails : Combat.IsRollMishap mishap)
      (mood : c.mood = .broken (.mishap mishap)) : Stands opening (input :: inputs) c

theorem Stands.of_reading (stands : Stands opening inputs c) (reading : c.mood = .reading) :
    (c.agenda.isHeld Call.roll.name = true → inputs.head?.map Input.command = some .roll) ∧
      (c.isLost = true → IsDeserted c.session) := by
  cases stands with
  | reading _ rolling lost => exact ⟨rolling, lost⟩
  | closed mood => cases mood.symm.trans reading
  | broken _ _ _ mood => cases mood.symm.trans reading
  | unrolled _ _ mood => cases mood.symm.trans reading

/-- A roll is called for. -/
theorem stepsOn_roll (background : IsBackground c.agenda) :
    c.StepsOn (fun name => c.agenda.isHeld name = true ∨ name = Call.roll.name) (fun _ => False)
      (c.launch .roll (·.rollInitiative combatRef)) :=
  stepsOn_launch background (comes_rollInitiative c.session)
    (fun _ (none : False) => none) (c.session.upholds_rollInitiative combatRef)

/-- Wherever it has come to, the background of a console that reads is one, and the loop stands. -/
theorem Plays.stands (opens : Opens opening) (plays : Plays opening inputs c) :
    (c.mood = .reading → IsBackground c.agenda) ∧ Stands opening inputs c := by
  induction plays with
  | opened =>
    have atPrompt : opening.agenda.isHeld Call.roll.name = false ∧ opening.isLost = false := by
      rw [isLost, opens.agenda]
      exact ⟨rfl, rfl⟩
    refine ⟨fun _ => opens.isBackground, .reading opens.mood (fun rolling => ?_) fun lost => ?_⟩
    · cases atPrompt.1.symm.trans rolling
    · cases atPrompt.2.symm.trans lost
  | @idles inputs c next plays reading going idles inductionHypothesis =>
    have steps := idles.stepsOn (inductionHypothesis.1 reading)
    obtain ⟨rolling, -⟩ := inductionHypothesis.2.of_reading reading
    refine ⟨fun _ => steps.background, ?_⟩
    rcases steps.mood with same | ⟨isRolling, mishap, broken, fails⟩
    · exact .reading (same.trans reading) (fun held => rolling (steps.held _ held))
        (steps.lost going)
    · obtain ⟨input, last, rolls⟩ := Option.map_eq_some_iff.mp (rolling isRolling)
      obtain ⟨rest, rfl⟩ := List.head?_eq_some_iff.mp last
      exact .unrolled rolls fails broken
  | refiled plays reading files inductionHypothesis =>
    obtain ⟨rolling, lost⟩ := inductionHypothesis.2.of_reading reading
    exact ⟨fun _ => inductionHypothesis.1 reading, .reading reading rolling lost⟩
  | @obeyed inputs c plays prompt input other inductionHypothesis =>
    have obeys := obeys_obey (inductionHypothesis.1 prompt.reading) prompt other
    rw [← take_eq prompt.reading] at obeys
    have goesOn (background : IsBackground (c.take input).agenda)
        (prompt : (c.take input).IsAtPrompt) :
        ((c.take input).mood = .reading → IsBackground (c.take input).agenda) ∧
          Stands opening (input :: inputs) (c.take input) := by
      refine ⟨fun _ => background, .reading prompt.reading (fun rolling => ?_) fun lost => ?_⟩
      · exact absurd rolling prompt.idle
      · cases prompt.going.symm.trans lost
    cases obeys with
    | done _ _ returns => exact goesOn returns.background returns.prompt
    | failed _ returns => exact goesOn returns.background returns.prompt
    | imported _ _ _ _ _ background prompt => exact goesOn background prompt
    | broken breaks mood =>
      refine ⟨fun reading => ?_, .broken plays prompt breaks mood⟩
      cases mood.symm.trans reading
    | closed quits closes =>
      refine ⟨fun reading => ?_, .closed closes.mood quits closes.free⟩
      cases closes.mood.symm.trans reading
  | @rolled inputs c plays prompt input rolls inductionHypothesis =>
    have steps := stepsOn_roll (inductionHypothesis.1 prompt.reading)
    refine ⟨fun _ => steps.background, ?_⟩
    rcases steps.mood with same | ⟨-, mishap, broken, fails⟩
    · exact .reading (same.trans prompt.reading) (fun _ => congrArg some rolls)
        (fun lost => (steps.lost prompt.going lost).elim)
    · exact .unrolled rolls fails broken

/-- The skirmish with its combat under way, and a file with a numeral that has one digit more than
the limit. -/
def underway : Console where
  agenda := { session := { Skirmish.session {} (.listed []) with
    combats := [{ Skirmish.combat (Skirmish.board 5) 500 with started := true }] } }
  files := [("big.json", String.ofList (List.replicate (Text.digitLimit + 1) '1'))]

end Console
end TurnScript
