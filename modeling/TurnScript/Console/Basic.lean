import TurnScript.Console.Command
import TurnScript.Console.Directory
import TurnScript.Console.Display
import TurnScript.Console.Skirmish
import TurnScript.Session.Agenda
import TurnScript.Store.Exchange

/-!
# The console

The console plays a skirmish by commands. Turns and runs go on in the background while it
reads; what they come to is shown when they come to it. A failure that callers expect is
shown as a line. A failure that is not foreseen ends the console, unless it happens in the
background, where no one sees it.
-/

namespace TurnScript

/-- Whether the console goes on reading. -/
inductive Mood where
  | reading
  | closed
  | broken (failure : Failure)
  deriving Repr, DecidableEq

/-- A console: the session and what goes on in it, the files, and what has been shown, latest
first. -/
structure Console where
  agenda : Agenda
  files : Directory := []
  shown : List Shown := []
  mood : Mood := .reading
  deriving Repr, DecidableEq

namespace Console

/-- The calls that a console makes. -/
inductive Call where
  | next
  | run
  | roll
  deriving Repr, DecidableEq

/-- The name of a call on the agenda. -/
def Call.name : Call → String
  | next => "next"
  | run => "run"
  | roll => "roll"

/-- The session of a console. -/
def session (c : Console) : Session :=
  c.agenda.session

/-- The only combat of a console. -/
def combatRef : CombatRef := 0

/-- The combat. -/
def combat (c : Console) : Combat :=
  c.session.combat combatRef

/-- The token whose turn it is. -/
def current (c : Console) : Option TokenRef :=
  c.combat.current

/-- A token of the session. -/
def token (c : Console) (ref : TokenRef) : Token :=
  c.session.token ref

/-- Show something. -/
def display (c : Console) (shown : List Shown) : Console :=
  { c with shown := shown.reverse ++ c.shown }

/-- Show a line. -/
def line (c : Console) (text : String) : Console :=
  c.display [.line text]

/-- Show an error. -/
def complain (c : Console) (text : String) : Console :=
  c.display [Display.inColor "red" text]

/-- Show the order of combat. -/
def displayOrder (c : Console) : Console :=
  c.display [Display.order c.combat c.session.table]

/-- Meet a failure: show it if callers expect it, else break. -/
def meet (c : Console) (failure : Failure) : Console :=
  match failure with
  | .store error =>
    if error.isExpected then c.complain error.message else { c with mood := .broken failure }
  | _ => { c with mood := .broken failure }

/-- Show what an event comes to: the end of a run of a turn. -/
def displayEvent (c : Console) : Event → Console
  | .turnRan summary => c.display (Display.summary summary)
  | _ => c

/-- Show what a roll comes to. -/
def displayRoll (c : Console) : Answer → Console
  | .errand (.rolled count) _ =>
    (if count = 0 then
      c.display [Display.inColor "yellow" "No auto-initiative tokens waiting to roll"]
    else c).displayOrder
  | .failed failure => c.meet failure
  | _ => c

/-- Show what a call comes to. A turn or run that failed in the background shows nothing. -/
def displayAnswer (c : Console) (name : String) (answer : Answer) : Console :=
  if name = Call.roll.name then c.displayRoll answer
  else match answer with
    | .summary summary => c.display (Display.summary summary)
    | .errand .. => c.displayOrder
    | _ => c

/-- Show what happened since the last look at the session. -/
def look (c : Console) : Console :=
  let events := c.session.trace.reverse
  let answers := c.agenda.answers.reverse
  let session := { c.session with trace := [] }
  let c := { c with agenda := { c.agenda with session, answers := [] } }
  answers.foldl (fun c (name, answer) => c.displayAnswer name answer)
    (events.foldl displayEvent c)

/-- Change the agenda and look. -/
def act (c : Console) (change : Agenda → Agenda) : Console :=
  { c with agenda := change c.agenda }.look

/-- Make a call in the background. -/
def launch (c : Console) (call : Call) (begin : Session → Session × Flow) : Console :=
  c.act (·.call call.name begin)

/-- Put an archive in place. -/
def withArchive (c : Console) (archive : Archive) : Console :=
  c.act (·.act fun s => { s with archive })

/-- Take steps, and let time pass if nothing is ready, but not beyond the limit; at most so
many times, and no longer than asked. -/
def pass (limit : Option Int) (goesOn : Console → Bool) : Nat → Console → Console
  | 0, c => c
  | fuel + 1, c =>
    if !goesOn c then c
    else match c.agenda.step? with
      | some agenda => pass limit goesOn fuel { c with agenda }.look
      | none => match c.agenda.nextDue? with
        | none => c
        | some moment =>
          if limit.all (moment ≤ ·) then pass limit goesOn fuel (c.act (·.passTo moment)) else c

/-- Steps and moments that are enough for all that is under way. -/
def patience (c : Console) : Nat :=
  2 * c.agenda.patience

/-- Let the background come to its end, or, if a time is given, go on for so long. -/
def await (c : Console) (duration : Option Int) : Console :=
  let limit := duration.map (c.agenda.now + ·)
  let c := pass limit (fun _ => true) c.patience c
  match limit with
  | none => c
  | some limit => c.act (·.setClock limit)

/-- Take up what is ready, and let no time pass. -/
def settle (c : Console) : Console :=
  c.await (some 0)

/-- Call for a roll, and let time pass until it is done. -/
def roll (c : Console) : Console :=
  let c := c.launch .roll (·.rollInitiative combatRef)
  pass none (fun c => c.agenda.isHeld Call.roll.name) c.patience c

/-- The token that a name means: the first of the scene with that id, or with a name that
begins so; without a name, the token whose turn it is. -/
def find? (c : Console) (name : Option String) : Option TokenRef :=
  match nonempty name with
  | none => c.current
  | some name =>
    let name := Text.inSmallLetters name
    c.session.table.board.scene.tokens.find? fun ref =>
      (c.token ref).id == name ||
        name.toList.isPrefixOf (Text.inSmallLetters (c.token ref).name).toList

/-- Do something with the token that a name means, if there is one. -/
def withToken (c : Console) (name : Option String) (go : TokenRef → Console) : Console :=
  match c.find? name with
  | none => c.complain "Unknown token"
  | some ref => go ref

/-- Do something with what an operation on the archive answers. -/
def stored {α : Type} (c : Console) (go : Console → α → Console) :
    Except StoreError α × Archive → Console
  | (.ok value, archive) => go (c.withArchive archive) value
  | (.error error, archive) => (c.withArchive archive).meet (.store error)

/-- Meet a file error. -/
def meetFile (c : Console) (error : FileError) : Console :=
  if error.isExpected then c.complain ("File error: " ++ error.message)
  else c.meet .terminatedPath

/-- Run the queue of a token in the background. -/
def runQueue (c : Console) (ref : TokenRef) : Console :=
  c.stored (fun c actions => c.launch .run (·.run ref actions))
    (c.session.archive.sortedQueue (c.token ref).id)

/-- Show the queue of a token. -/
def listQueue (c : Console) (ref : TokenRef) : Console :=
  let token := c.token ref
  c.stored (fun c actions =>
    c.stored (fun c enabled => c.display [Display.queue token enabled actions])
      (c.session.archive.isEnabled token.id))
    (c.session.archive.sortedQueue token.id)

/-- Show the report on the queue of a token. -/
def checkQueue (c : Console) (ref : TokenRef) : Console :=
  let token := c.token ref
  c.stored (fun c actions => c.display (Display.report token (Report.ofScript actions)))
    (c.session.archive.queue token.id)

/-- Write the queue of a token to a file. -/
def exportQueue (c : Console) (ref : TokenRef) (file : String) : Console :=
  let token := c.token ref
  c.stored (fun c text =>
    match c.files.write (Path.ofText file) text with
    | .error error => c.meetFile error
    | .ok files =>
      { c with files }.line ("Exported " ++ token.name ++ "'s queue to " ++ file))
    (c.session.archive.exportQueue token.id (some token.name))

/-- Read the queue of the token whose turn it is from a file. -/
def importQueue (c : Console) (file : String) (append : Bool) : Console :=
  match c.current with
  | none => c.complain "Start combat first (next)"
  | some ref =>
    let token := c.token ref
    match c.files.read (Path.ofText file) with
    | .error error => c.meetFile error
    | .ok text =>
      c.stored (fun c actions =>
        c.line ("Imported " ++ toString actions.length ++ " action(s) for " ++ token.name))
        (c.session.archive.importQueue token.id text append)

/-- Flag a token for initiative or take the flag away. -/
def toggle (c : Console) (ref : TokenRef) : Console :=
  let (flagged, table) := Combat.toggle c.session.table ref
  (c.act (·.act (·.withTable table))).line
    ("Auto-initiative " ++ (if flagged then "on" else "off") ++ " for " ++ (c.token ref).name)

/-- Clear the initiative of the flagged combatants. -/
def reset (c : Console) : Console :=
  let (cleared, table) := c.combat.reset c.session.table
  (c.act (·.act (·.withTable table))).line
    ("Reset initiative for " ++ toString cleared ++ " combatant(s)")

/-- Stop the engine. -/
def stop (c : Console) : Console :=
  match c.session.stop with
  | (session, none) => c.act (·.act fun _ => session)
  | (_, some mishap) => c.meet (.mishap mishap)

/-- Show the state of the engine. -/
def displayStatus (c : Console) : Console :=
  match c.session.status with
  | .ok status => c.display [.status status]
  | .error mishap => c.meet (.mishap mishap)

/-- Close: stop the run that is being executed, give up what else is in the background, and let the
stopped run come to its end. -/
def close (c : Console) : Console :=
  { ((c.stop.line "Goodbye!").act (·.giveUp)).settle with mood := .closed }

/-- Obey a command. -/
def obey (c : Console) : Command → Console
  | .help => c.line Display.help
  | .next => c.launch .next (·.nextTurn combatRef)
  | .run name => c.withToken name c.runQueue
  | .status => c.displayStatus
  | .stop => c.stop
  | .list name => match c.find? name with
    | none => c.displayOrder
    | some ref => c.listQueue ref
  | .check name => match c.find? name with
    | none => c.displayOrder
    | some ref => c.checkQueue ref
  | .exportTo file name => c.withToken name (c.exportQueue · file)
  | .importFrom file append => c.importQueue file append
  | .auto name => c.withToken name c.toggle
  | .roll => c.roll
  | .reset => c.reset
  | .quit => c.close

/-- What is typed at the prompt. -/
inductive Input where
  | line (text : String)
  /-- The end of the input, or an interruption. -/
  | close
  deriving Repr, DecidableEq

/-- Take an input, if the console goes on reading. -/
def take (c : Console) (input : Input) : Console :=
  match c.mood with
  | .reading => match input with
    | .line text => c.obey (Command.ofLine text)
    | .close => c.close
  | _ => c

/-- A console that has just been opened. -/
def start (settings : Settings) (source : RollSource) (files : Directory) : Console :=
  let c : Console := { agenda := { session := Skirmish.session settings source }, files }
  (c.line "Welcome to Auto-Turn! Type 'next' to start combat.").line Display.help

end Console
end TurnScript
