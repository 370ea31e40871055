import TurnScript.Proofs.Console.Prompt

/-!
# How commands are obeyed

A command at the prompt goes well, or it fails as is foreseen, which is shown in one line, or it
fails as nobody foresees, which ends the loop. The ways to fail are told here without looking at
what the console does, and then what it does is told by one constructor for each outcome.
-/

namespace TurnScript

/-- The name of the token that a command cannot do without. -/
def Command.subject? : Command → Option (Option String)
  | .run name | .auto name | .exportTo _ name => some name
  | _ => none

namespace Archive

variable {a : Archive} {shelves : Shelves} {subject text : String} {append : Bool}

/-- An archive holds some queues after an import, too. -/
theorem Holds.exists_importQueue (holds : a.Holds shelves) (subject text : String)
    (append : Bool) : ∃ later, (a.importQueue subject text append).2.Holds later := by
  have valid : (StoreOp.adopt text append).IsValid := trivial
  exact ⟨_, holds.perform_valid subject valid⟩

/-- An import fails as nobody foresees exactly for a text that is unforeseen. -/
theorem Holds.importQueue_unexpected_iff (holds : a.Holds shelves) :
    (∃ error, (a.importQueue subject text append).1 = .error error ∧ error.isExpected = false) ↔
      IsUnforeseen text (if append then actionsOn (shelves subject) else []).length := by
  have effect := congrArg Prod.fst (holds.perform subject (.adopt text append))
  exact (importTells_of_effect
    (fun action member => (holds.isKept subject action member).writable) effect).unexpected_iff

end Archive

namespace Console

variable {c next : Console}

/-! ## What goes wrong -/

/-- What is shown for a command that fails as is foreseen. -/
inductive Fails (c : Console) : Command → String → Prop
  | unknown {command : Command} {name : Option String} (needed : command.subject? = some name)
      (unknown : c.find? name = none) : Fails c command "Unknown token"
  | unwritten {file : String} {name : Option String} {ref : TokenRef} {error : FileError}
      (found : c.find? name = some ref) (refused : c.files.locate (Path.ofText file) = .error error)
      (expected : error.isExpected = true) :
      Fails c (.exportTo file name) ("File error: " ++ error.message)
  | outOfTurn {file : String} {append : Bool} (nobody : c.current = none) :
      Fails c (.importFrom file append) "Start combat first (next)"
  | unread {file : String} {append : Bool} {ref : TokenRef} {error : FileError}
      (turn : c.current = some ref) (refused : c.files.read (Path.ofText file) = .error error)
      (expected : error.isExpected = true) :
      Fails c (.importFrom file append) ("File error: " ++ error.message)
  | refused {file text : String} {append : Bool} {ref : TokenRef} {error : StoreError}
      (turn : c.current = some ref) (read : c.files.read (Path.ofText file) = .ok text)
      (refused : (c.session.archive.importQueue (c.token ref).id text append).1 = .error error)
      (expected : error.isExpected = true) : Fails c (.importFrom file append) error.message

/-- A command fails as nobody foresees: a character ends the path of its file too early, or what it
imports is unforeseen. -/
inductive Breaks (c : Console) : Command → Prop
  | unwritten {file : String} {name : Option String} {ref : TokenRef}
      (found : c.find? name = some ref)
      (ends : Path.hasTerminator (Path.ofText file).text = true) : Breaks c (.exportTo file name)
  | unread {file : String} {append : Bool} {ref : TokenRef} (turn : c.current = some ref)
      (ends : Path.hasTerminator (Path.ofText file).text = true) :
      Breaks c (.importFrom file append)
  | unforeseen {file text : String} {append : Bool} {ref : TokenRef} {queue : List Action}
      (turn : c.current = some ref) (read : c.files.read (Path.ofText file) = .ok text)
      (stored : (c.session.archive.queue (c.token ref).id).1 = .ok queue)
      (unforeseen : Archive.IsUnforeseen text (if append then queue else []).length) :
      Breaks c (.importFrom file append)

/-- What comes of a command at the prompt, other than a roll. -/
inductive Obeys (c : Console) (command : Command) (next : Console) : Prop
  /-- It goes well, and leaves the queues as they were. -/
  | done (sound : ∀ text, ¬ c.Fails command text) (safe : ¬ c.Breaks command)
      (returns : c.Returns next)
  /-- It fails, which is shown in one line. -/
  | failed {text : String} (fails : c.Fails command text) (returns : c.Returns next)
      (shown : next.shown = Display.inColor "red" text :: c.shown)
  /-- It imports a queue. -/
  | imported {file text : String} {append : Bool} {ref : TokenRef} {actions : List Action}
      (imports : command = .importFrom file append)
      (accepted : (c.session.archive.importQueue (c.token ref).id text append).1 = .ok actions)
      (sound : ∀ text, ¬ c.Fails command text) (safe : ¬ c.Breaks command)
      (archive : next.session.archive =
        (c.session.archive.importQueue (c.token ref).id text append).2)
      (background : IsBackground next.agenda) (prompt : next.IsAtPrompt)
  /-- It fails as nobody foresees, and ends the loop. -/
  | broken {failure : Failure} (breaks : c.Breaks command) (mood : next.mood = .broken failure)
      (rows : next.session.archive.rows = c.session.archive.rows)
  | closed (quits : command = .quit) (closes : c.Closes next)

/-- A command that fails shows one line, whatever it is. -/
theorem Fails.unique {command : Command} {text other : String} (fails : c.Fails command text)
    (again : c.Fails command other) : other = text := by
  cases fails with
  | unknown needed unknown =>
    cases again with
    | unknown => rfl
    | unwritten found =>
      cases needed
      cases unknown.symm.trans found
    | outOfTurn | unread | refused => cases needed
  | unwritten found refused =>
    cases again with
    | unknown needed unknown =>
      cases needed
      cases unknown.symm.trans found
    | unwritten _ refusedToo =>
      cases refused.symm.trans refusedToo
      rfl
  | outOfTurn nobody =>
    cases again with
    | unknown needed => cases needed
    | outOfTurn => rfl
    | unread turn | refused turn => cases nobody.symm.trans turn
  | unread turn refused =>
    cases again with
    | unknown needed => cases needed
    | outOfTurn nobody => cases nobody.symm.trans turn
    | unread _ refusedToo =>
      cases refused.symm.trans refusedToo
      rfl
    | refused _ read => cases refused.symm.trans read
  | refused turn read failed =>
    cases again with
    | unknown needed => cases needed
    | outOfTurn nobody => cases nobody.symm.trans turn
    | unread _ refused => cases refused.symm.trans read
    | refused turnToo readToo failedToo =>
      cases turn.symm.trans turnToo
      cases read.symm.trans readToo
      cases failed.symm.trans failedToo
      rfl

/-- An import of a file that can be read breaks the loop exactly if it fails as is not expected. -/
theorem breaks_import_iff (background : IsBackground c.agenda) {file text : String}
    {append : Bool} {ref : TokenRef}
    (turn : c.current = some ref) (read : c.files.read (Path.ofText file) = .ok text) :
    c.Breaks (.importFrom file append) ↔ ∃ error,
      (c.session.archive.importQueue (c.token ref).id text append).1 = .error error ∧
        error.isExpected = false := by
  obtain ⟨shelves, holds⟩ : ∃ shelves, c.session.archive.Holds shelves := background.archive
  rw [holds.importQueue_unexpected_iff]
  constructor
  · intro broken
    cases broken with
    | unread _ ends => cases read.symm.trans (Directory.read_of_terminated ends)
    | unforeseen again found kept unforeseen =>
      cases turn.symm.trans again
      cases read.symm.trans found
      rw [holds.queue] at kept
      cases kept
      exact unforeseen
  · exact .unforeseen turn read (congrArg Prod.fst (holds.queue _))

/-- What fails as is foreseen does not break the loop. -/
theorem Fails.safe (background : IsBackground c.agenda) {command : Command} {text : String}
    (fails : c.Fails command text) : ¬ c.Breaks command := by
  intro breaks
  cases fails with
  | unknown needed unknown =>
    cases breaks with
    | unwritten found =>
      cases needed
      cases unknown.symm.trans found
    | unread | unforeseen => cases needed
  | unwritten _ refused expected =>
    cases breaks with
    | unwritten _ ends =>
      rw [Directory.isExpected_of_locate refused, ends] at expected
      cases expected
  | outOfTurn nobody =>
    cases breaks with
    | unread turn | unforeseen turn => cases nobody.symm.trans turn
  | unread _ refused expected =>
    cases breaks with
    | unread _ ends =>
      rw [Directory.isExpected_of_read refused, ends] at expected
      cases expected
    | unforeseen _ read => cases refused.symm.trans read
  | refused turn read failed expected =>
    obtain ⟨error, failedToo, unexpected⟩ := (breaks_import_iff background turn read).mp breaks
    cases failed.symm.trans failedToo
    cases expected.symm.trans unexpected

/-- A command that needs no token and imports nothing does not go wrong. -/
theorem obeys_of_plain {command : Command} (needless : command.subject? = none)
    (other : ∀ file append, command ≠ .importFrom file append) (returns : c.Returns next) :
    c.Obeys command next := by
  refine .done (fun text fails => ?_) (fun breaks => ?_) returns
  · cases fails with
    | unknown needed => cases needless.symm.trans needed
    | unwritten => cases needless
    | outOfTurn | unread | refused => exact other _ _ rfl
  · cases breaks with
    | unwritten => cases needless
    | unread | unforeseen => exact other _ _ rfl

/-- A command that finds its token and writes nothing does not go wrong. -/
theorem obeys_of_found {command : Command} {name : Option String} {ref : TokenRef}
    (needed : command.subject? = some name) (found : c.find? name = some ref)
    (other : ∀ file name, command ≠ .exportTo file name) (returns : c.Returns next) :
    c.Obeys command next := by
  refine .done (fun text fails => ?_) (fun breaks => ?_) returns
  · cases fails with
    | unknown again unknown =>
      cases needed.symm.trans again
      cases unknown.symm.trans found
    | unwritten => exact other _ _ rfl
    | outOfTurn | unread | refused => cases needed
  · cases breaks with
    | unwritten => exact other _ _ rfl
    | unread | unforeseen => cases needed

/-- Meeting a file error is showing it, or the end of the loop if a character ends the path too
early. -/
theorem obeys_meetFile {command : Command} {path : Path} {error : FileError}
    (returns : c.Returns next) (same : next.shown = c.shown)
    (told : error.isExpected = !Path.hasTerminator path.text)
    (fails : error.isExpected = true → c.Fails command ("File error: " ++ error.message))
    (breaks : Path.hasTerminator path.text = true → c.Breaks command) :
    c.Obeys command (next.meetFile error) := by
  cases expected : error.isExpected with
  | true =>
    have shows : next.meetFile error = next.complain ("File error: " ++ error.message) :=
      if_pos expected
    rw [shows]
    exact .failed (fails expected)
      (returns.trans (returns_display returns.background returns.prompt _))
      (congrArg (List.cons _) same)
  | false =>
    have ends : Path.hasTerminator path.text = true := by
      simpa [expected] using told
    have ended : next.meetFile error = { next with mood := .broken .terminatedPath } :=
      if_neg (Bool.eq_false_iff.mp expected)
    rw [ended]
    exact .broken (breaks ends) rfl returns.rows

section Prompt

variable (background : IsBackground c.agenda) (prompt : c.IsAtPrompt)
include background

theorem files_withArchive (archive : Archive) : (c.withArchive archive).files = c.files := by
  rw [withArchive_eq background]

theorem shown_withArchive (archive : Archive) : (c.withArchive archive).shown = c.shown := by
  rw [withArchive_eq background]

include prompt

/-- A command that needs a token goes on with it, if there is one. -/
theorem obeys_withToken {command : Command} {name : Option String} {go : TokenRef → Console}
    (needed : command.subject? = some name)
    (goes : ∀ ref, c.find? name = some ref → c.Obeys command (go ref)) :
    c.Obeys command (c.withToken name go) := by
  unfold withToken
  split
  · next unknown =>
    exact .failed (.unknown needed unknown) (returns_display background prompt _) rfl
  · next ref found => exact goes ref found

theorem obeys_exportQueue {file : String} {name : Option String} {ref : TokenRef}
    (found : c.find? name = some ref) :
    c.Obeys (.exportTo file name) (c.exportQueue ref file) := by
  obtain ⟨shelves, holds⟩ : ∃ shelves, c.session.archive.Holds shelves := background.archive
  have returns := returns_withArchive background prompt (rfl : c.session.archive.rows = _)
  simp only [exportQueue, holds.exportQueue, stored, files_withArchive background]
  have same := shown_withArchive background c.session.archive
  generalize c.withArchive c.session.archive = placed at returns same
  split
  · next error refused =>
    have located := Directory.write_eq_error_iff.mp refused
    exact obeys_meetFile returns same (Directory.isExpected_of_locate located)
      (.unwritten found located) (.unwritten found)
  · next files written =>
    have located (error : FileError) : c.files.locate (Path.ofText file) ≠ .error error := by
      intro refused
      cases written.symm.trans (Directory.write_eq_error_iff.mpr refused)
    refine .done (fun text fails => ?_) (fun broken => ?_)
      (returns.trans (returns_of_same returns.background returns.prompt rfl rfl))
    · cases fails with
      | unknown needed unknown =>
        cases needed
        cases unknown.symm.trans found
      | unwritten _ refused => exact located _ refused
    · cases broken with
      | unwritten _ ends => exact located _ (Directory.locate_of_terminated ends)

/-- What comes of an import that is refused. -/
theorem obeys_refused_import {file text : String} {append : Bool} {ref : TokenRef}
    {error : StoreError} {archive : Archive} (turn : c.current = some ref)
    (read : c.files.read (Path.ofText file) = .ok text)
    (outcome : c.session.archive.importQueue (c.token ref).id text append =
      (.error error, archive)) :
    c.Obeys (.importFrom file append) ((c.withArchive archive).meet (.store error)) := by
  obtain ⟨shelves, holds⟩ : ∃ shelves, c.session.archive.Holds shelves := background.archive
  have refused := congrArg Prod.fst outcome
  have rows : archive.rows = c.session.archive.rows := by
    have same := holds.importQueue_error refused
    rwa [outcome] at same
  have returns := returns_withArchive background prompt rows
  cases expected : error.isExpected with
  | true =>
    have shows : (c.withArchive archive).meet (.store error) =
        (c.withArchive archive).complain error.message := if_pos expected
    rw [shows]
    exact .failed (.refused turn read refused expected)
      (returns.trans (returns_display returns.background returns.prompt _))
      (congrArg (List.cons _) (shown_withArchive background archive))
  | false =>
    have ended : (c.withArchive archive).meet (.store error) =
        { c.withArchive archive with mood := .broken (.store error) } :=
      if_neg (Bool.eq_false_iff.mp expected)
    rw [ended]
    have breaks := (breaks_import_iff background turn read).mpr ⟨error, refused, expected⟩
    exact .broken breaks rfl returns.rows

/-- What comes of an import that is accepted. -/
theorem obeys_accepted_import {file text : String} {append : Bool} {ref : TokenRef}
    {actions : List Action} {archive : Archive} (turn : c.current = some ref)
    (read : c.files.read (Path.ofText file) = .ok text)
    (outcome : c.session.archive.importQueue (c.token ref).id text append = (.ok actions, archive))
    (shown : List Shown) :
    c.Obeys (.importFrom file append) ((c.withArchive archive).display shown) := by
  obtain ⟨shelves, holds⟩ : ∃ shelves, c.session.archive.Holds shelves := background.archive
  have accepted := congrArg Prod.fst outcome
  obtain ⟨later, holdsLater⟩ := holds.exists_importQueue (c.token ref).id text append
  rw [outcome] at holdsLater
  have shows := returns_display (isBackground_withArchive background holdsLater)
    (isAtPrompt_withArchive background prompt archive) shown
  refine .imported rfl accepted (fun other fails => ?_) (fun broken => ?_) ?_
    shows.background shows.prompt
  · cases fails with
    | unknown needed => cases needed
    | outOfTurn nobody => cases turn.symm.trans nobody
    | unread _ refused => cases read.symm.trans refused
    | refused again found failed =>
      cases turn.symm.trans again
      cases read.symm.trans found
      cases accepted.symm.trans failed
  · obtain ⟨error, failed, -⟩ := (breaks_import_iff background turn read).mp broken
    cases accepted.symm.trans failed
  · rw [outcome]
    change (c.withArchive archive).session.archive = archive
    rw [withArchive_eq background]
    rfl

theorem obeys_importQueue (file : String) (append : Bool) :
    c.Obeys (.importFrom file append) (c.importQueue file append) := by
  unfold importQueue
  split
  · next turn =>
    exact .failed (.outOfTurn turn) (returns_display background prompt _) rfl
  · next ref turn =>
    dsimp only
    split
    · next error refused =>
      have told := Directory.isExpected_of_read refused
      exact obeys_meetFile (returns_of_same background prompt rfl rfl) rfl told
        (.unread turn refused) (.unread turn)
    · next text read =>
      cases outcome : c.session.archive.importQueue (c.token ref).id text append with
      | mk answer archive =>
        cases answer with
        | ok actions => exact obeys_accepted_import background prompt turn read outcome _
        | error error => exact obeys_refused_import background prompt turn read outcome

/-- Every command but a roll has one of the outcomes. -/
theorem obeys_obey {command : Command} (other : command ≠ .roll) :
    c.Obeys command (c.obey command) := by
  cases command with
  | help => exact obeys_of_plain rfl nofun (returns_display background prompt _)
  | next => exact obeys_of_plain rfl nofun (returns_next background prompt)
  | status => exact obeys_of_plain rfl nofun (returns_displayStatus background prompt)
  | stop => exact obeys_of_plain rfl nofun (returns_stop background prompt)
  | reset => exact obeys_of_plain rfl nofun (returns_withTable background prompt _ _)
  | roll => exact absurd rfl other
  | quit => exact .closed rfl (closes_close background)
  | importFrom file append => exact obeys_importQueue background prompt file append
  | exportTo file name =>
    exact obeys_withToken background prompt rfl fun ref found =>
      obeys_exportQueue background prompt found
  | run name =>
    exact obeys_withToken background prompt rfl fun ref found =>
      obeys_of_found rfl found (fun _ _ => Command.noConfusion)
        (returns_runQueue background prompt ref)
  | auto name =>
    exact obeys_withToken background prompt rfl fun ref found =>
      obeys_of_found rfl found (fun _ _ => Command.noConfusion)
        (returns_withTable background prompt _ _)
  | list name =>
    apply obeys_of_plain rfl fun _ _ => Command.noConfusion
    simp only [obey]
    split
    · exact returns_display background prompt _
    · exact returns_listQueue background prompt _
  | check name =>
    apply obeys_of_plain rfl fun _ _ => Command.noConfusion
    simp only [obey]
    split
    · exact returns_display background prompt _
    · exact returns_checkQueue background prompt _

end Prompt

end Console
end TurnScript
