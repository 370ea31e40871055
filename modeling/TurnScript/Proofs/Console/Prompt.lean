import TurnScript.Proofs.Console.Closing
import TurnScript.Proofs.Store.HandingOn

/-!
# The prompt of a console

A console at its prompt obeys a command without anything else going on. Here are the commands that
go well, from which the console comes back to its prompt with the queues as they were, and the files
that are refused: every refusal is expected, but for a path that a character ends too early.
-/

namespace TurnScript

/-! ## Files that are refused -/

namespace Directory

variable {d : Directory} {path : Path} {text : String} {error : FileError}

theorem locate_of_terminated (ends : Path.hasTerminator path.text = true) :
    d.locate path = .error (.terminated path) :=
  if_pos ends

/-- Only a character that ends the path too early is not expected of a path. -/
theorem isExpected_of_locate (refused : d.locate path = .error error) :
    error.isExpected = !Path.hasTerminator path.text := by
  unfold locate at refused
  split at refused
  · next ends =>
    cases refused
    rw [ends]
    rfl
  · next sound =>
    rw [Bool.not_eq_true] at sound
    rw [sound]
    split at refused <;> cases refused <;> rfl

theorem write_eq_error_iff : d.write path text = .error error ↔ d.locate path = .error error := by
  unfold write
  cases d.locate path with
  | ok names =>
    constructor
    · rintro ⟨⟩
    · rintro ⟨⟩
  | error other =>
    constructor
    · rintro ⟨⟩
      rfl
    · rintro ⟨⟩
      rfl

theorem read_of_terminated (ends : Path.hasTerminator path.text = true) :
    d.read path = .error (.terminated path) := by
  unfold read
  rw [locate_of_terminated ends]
  rfl

theorem isExpected_of_read (refused : d.read path = .error error) :
    error.isExpected = !Path.hasTerminator path.text := by
  unfold read at refused
  cases located : d.locate path with
  | error other =>
    rw [located] at refused
    obtain rfl := Except.error.inj refused
    exact isExpected_of_locate located
  | ok names =>
    have sound : Path.hasTerminator path.text = false := by
      by_contra ends
      rw [Bool.not_eq_false] at ends
      cases located.symm.trans (locate_of_terminated ends)
    rw [located] at refused
    rw [sound]
    simp only [bind, Except.bind] at refused
    split at refused
    · cases refused
    · cases refused
      rfl

end Directory

namespace Console

variable {c next : Console} {input : Input}

/-! ## The prompt -/

/-- The command that an input is. -/
def Input.command : Input → Command
  | .line text => .ofLine text
  | .close => .quit

theorem take_eq (reading : c.mood = .reading) (input : Input) :
    c.take input = c.obey input.command := by
  cases input <;> simp only [take, reading, Input.command, obey]

/-- A console at its prompt: no roll is being waited for, and no call is lost. -/
structure IsAtPrompt (c : Console) : Prop where
  reading : c.mood = .reading
  rolled : c.agenda.isHeld Call.roll.name = false
  going : c.isLost = false

/-- A console that is back at its prompt, with the queues as they were. -/
structure Returns (c next : Console) : Prop where
  background : IsBackground next.agenda
  prompt : next.IsAtPrompt
  rows : next.session.archive.rows = c.session.archive.rows

theorem Returns.trans {middle : Console} (first : c.Returns middle)
    (second : middle.Returns next) : c.Returns next :=
  ⟨second.background, second.prompt, second.rows.trans first.rows⟩

/-- What goes on without a roll, and without a call being lost, leaves the console at its prompt. -/
theorem StepsOn.returns {active : String → Prop} (steps : c.StepsOn active (fun _ => False) next)
    (prompt : c.IsAtPrompt) (idle : ¬ active Call.roll.name) : c.Returns next := by
  refine ⟨steps.background, ⟨?_, ?_, ?_⟩, steps.upholds.rows⟩
  · rcases steps.mood with same | ⟨rolling, _⟩
    · exact same.trans prompt.reading
    · exact absurd rolling idle
  · by_contra rolling
    rw [Bool.not_eq_false] at rolling
    exact idle (steps.held _ rolling)
  · by_contra isLost
    rw [Bool.not_eq_false] at isLost
    exact steps.lost prompt.going isLost

theorem IsAtPrompt.idle (prompt : c.IsAtPrompt) : ¬ c.agenda.isHeld Call.roll.name = true := by
  rw [prompt.rolled]
  exact Bool.false_ne_true

section Prompt

variable (background : IsBackground c.agenda) (prompt : c.IsAtPrompt)
include background

/-- An archive is put in place without anything being shown. -/
theorem withArchive_eq (archive : Archive) :
    c.withArchive archive =
      { c with agenda := c.agenda.act fun s => { s with archive } } :=
  look_of_seen background.events background.answers

theorem isBackground_withArchive {archive : Archive} {shelves : Shelves}
    (holds : archive.Holds shelves) : IsBackground (c.withArchive archive).agenda := by
  rw [withArchive_eq background]
  have kept : ({ c.agenda with session := { c.session with archive } } : Agenda).Every IsEntry :=
    ⟨background.entries.ready, background.entries.waiting⟩
  exact ⟨⟨shelves, holds⟩, background.audiences, background.free, background.events,
    background.answers, kept.release⟩

include prompt

/-- Other files, and what has been shown, leave the console at its prompt. -/
theorem returns_of_same (agenda : next.agenda = c.agenda) (mood : next.mood = c.mood) :
    c.Returns next := by
  obtain ⟨_, files, shown, _⟩ := next
  cases agenda
  cases mood
  exact ⟨background, ⟨prompt.reading, prompt.rolled, prompt.going⟩, rfl⟩

theorem returns_display (shown : List Shown) : c.Returns (c.display shown) :=
  returns_of_same background prompt rfl rfl

theorem isAtPrompt_withArchive (archive : Archive) : (c.withArchive archive).IsAtPrompt := by
  rw [withArchive_eq background]
  have kept (P : String → Activity → Prop) (every : c.agenda.Every P) :
      (c.agenda.act fun s => { s with archive }).Every P :=
    Agenda.Every.release ⟨every.ready, every.waiting⟩
  exact ⟨prompt.reading,
    Agenda.isHeld_eq_false_iff.mpr (kept _ (Agenda.isHeld_eq_false_iff.mp prompt.rolled)),
    isLost_eq_false_iff.mpr (kept _ (isLost_eq_false_iff.mp prompt.going))⟩

/-- An archive with the same rows is put in place. -/
theorem returns_withArchive {archive : Archive} (same : archive.rows = c.session.archive.rows) :
    c.Returns (c.withArchive archive) := by
  obtain ⟨shelves, holds⟩ := background.archive
  refine ⟨isBackground_withArchive background (holds.congr same),
    isAtPrompt_withArchive background prompt archive, ?_⟩
  rw [withArchive_eq background]
  exact same

/-- The answer of an operation that leaves the archive is handed on at the prompt. -/
theorem returns_stored {α : Type} {go : Console → α → Console} {value : α}
    {operation : Except StoreError α × Archive}
    (answered : operation = (.ok value, c.session.archive))
    (goes : ∀ middle : Console, IsBackground middle.agenda → middle.IsAtPrompt →
      middle.Returns (go middle value)) : c.Returns (c.stored go operation) := by
  subst answered
  have placed := returns_withArchive background prompt (rfl : c.session.archive.rows = _)
  exact placed.trans (goes _ placed.background placed.prompt)

theorem returns_act {change : Session → Session} (upholds : c.session.Upholds (change c.session)) :
    c.Returns (c.act (·.act change)) :=
  (stepsOn_act background upholds).returns prompt prompt.idle

/-- A call for anything but a roll leaves the console at its prompt. -/
theorem returns_launch {call : Call} {begin : Session → Session × Flow} (other : call ≠ .roll)
    (comes : Comes (fun _ => False) call (begin c.session))
    (upholds : c.session.Upholds (begin c.session).1) : c.Returns (c.launch call begin) := by
  refine (stepsOn_launch background comes (fun _ none => none) upholds).returns prompt ?_
  rintro (rolling | same)
  · exact prompt.idle rolling
  · exact other (Call.name_inj same).symm

/-! ## Commands that go well -/

theorem returns_next : c.Returns (c.launch .next (·.nextTurn combatRef)) :=
  returns_launch background prompt Call.noConfusion (comes_nextTurn background.audiences)
    (c.session.upholds_nextTurn combatRef)

theorem returns_runQueue (ref : TokenRef) : c.Returns (c.runQueue ref) := by
  obtain ⟨shelves, holds⟩ := background.archive
  exact returns_stored background prompt (holds.sortedQueue _) fun middle background prompt =>
    returns_launch background prompt Call.noConfusion (comes_run _ ref _)
      (Session.upholds_run _ ref _)

theorem returns_listQueue (ref : TokenRef) : c.Returns (c.listQueue ref) := by
  obtain ⟨shelves, holds⟩ := background.archive
  unfold listQueue
  apply returns_stored background prompt (holds.sortedQueue _)
  intro middle background prompt
  obtain ⟨shelves, holds⟩ := background.archive
  apply returns_stored background prompt (holds.isEnabled _)
  intro last background prompt
  exact returns_display background prompt _

theorem returns_checkQueue (ref : TokenRef) : c.Returns (c.checkQueue ref) := by
  obtain ⟨shelves, holds⟩ := background.archive
  unfold checkQueue
  apply returns_stored background prompt (holds.queue _)
  intro middle background prompt
  exact returns_display background prompt _

theorem returns_withTable (table : Table) (text : String) :
    c.Returns ((c.act (·.act (·.withTable table))).line text) := by
  have changed : c.Returns (c.act (·.act (·.withTable table))) :=
    returns_act background prompt ⟨rfl, rfl, rfl⟩
  exact changed.trans (returns_display changed.background changed.prompt _)

theorem returns_stop : c.Returns c.stop :=
  (stepsOn_stop background).returns prompt prompt.idle

theorem returns_displayStatus : c.Returns c.displayStatus := by
  have free : c.session.heldForNobody = false := background.free
  simp only [displayStatus, Session.status, free, Bool.false_eq_true, if_false]
  exact returns_display background prompt _

end Prompt

end Console
end TurnScript
