import TurnScript.Combat.Basic

/-!
# Errands of a combat

An errand is a call of a combat: to roll, to start, to go on to the next turn, or to let a
token join. Like a run, it stands at a stage that says what it waits for, and goes on to its
next stage when that has happened; meanwhile others may change the combat and the tokens.
-/

namespace TurnScript

/-- What a combat is called for. -/
inductive Errand where
  | roll
  | start
  | next
  | join
  deriving Repr, DecidableEq

/-- What an errand comes to. -/
inductive ErrandEnd where
  | rolled (count : Nat)
  /-- The token whose turn it is now. -/
  | turnOf (ref : Option TokenRef)
  | joined
  | raised (mishap : Mishap)
  deriving Repr, DecidableEq

namespace Combat

/-- What an errand waits for. -/
inductive Stage where
  /-- The end of the pause between two rolls of a batch. -/
  | resting (ahead : List TokenRef) (rolled : Nat)
  /-- The end of what the listeners do about the turn of a token. -/
  | announcing (ref : TokenRef)
  /-- Nothing: the errand is done. -/
  | ended (how : ErrandEnd)
  /-- Nothing: no combatant is alive, and rounds go by without end. -/
  | adrift
  deriving Repr, DecidableEq

/-- A combat and its table after a piece of an errand, with what the piece came to. -/
structure Step (α : Type) where
  combat : Combat
  table : Table
  result : α

/-- How far a batch has come. -/
inductive Batch where
  | finished (rolled : Nat)
  | paused (ahead : List TokenRef) (rolled : Nat)
  | failed (mishap : Mishap)
  deriving Repr, DecidableEq

/-- Write down the initiative that a token rolled. -/
def setInitiative (table : Table) (ref : TokenRef) (total : Int) : Table :=
  (table.change ref fun t => { t with initiative := some total }).remark "combat" .debug
    ("Rolled initiative for " ++ (table.token ref).name ++ ": " ++ toString total)

/-- Roll for the candidates ahead, up to the next pause, which must not be too long. -/
def rollAhead (delay : Int) (table : Table) : List TokenRef → Nat → Batch × Table
  | [], rolled => (.finished rolled, table)
  | ref :: ahead, rolled =>
    let token := table.token ref
    if token.initiative.isSome then rollAhead delay table ahead rolled
    else match token.score? .dexterity with
      | none => (.failed (.missingScore Ability.dexterity.name), table)
      | some score => match table.dice.rollInitiative score with
        | (.error error, dice) => (.failed (.roll error), { table with dice })
        | (.ok total, dice) =>
          let table := setInitiative { table with dice } ref total
          if 0 < delay && !ahead.isEmpty then
            if isOverlong delay then (.failed .overlong, table)
            else (.paused ahead (rolled + 1), table)
          else rollAhead delay table ahead (rolled + 1)

/-- What is said when a batch has been finished. -/
def remarkRolled (table : Table) (rolled : Nat) : Table :=
  if rolled = 0 then table
  else table.remark "combat" .info
    ("Rolled initiative for " ++ toString rolled ++ " combatant(s)")

/-- Go on with a batch. It is under way until it is finished or fails. -/
def continueBatch (c : Combat) (table : Table) (ahead : List TokenRef) (rolled : Nat) :
    Step Batch :=
  match rollAhead c.rollDelay table ahead rolled with
  | (.finished rolled, table) =>
    ⟨{ c with rolling := false }, remarkRolled table rolled, .finished rolled⟩
  | (.failed mishap, table) => ⟨{ c with rolling := false }, table, .failed mishap⟩
  | (.paused ahead rolled, table) => ⟨c, table, .paused ahead rolled⟩

/-- Begin a batch, unless one is under way. -/
def beginBatch (c : Combat) (table : Table) : Step Batch :=
  if c.rolling then
    ⟨c, table.remark "combat" .debug "Already rolling initiative, skipping", .finished 0⟩
  else { c with rolling := true }.continueBatch table (c.candidates table) 0

/-- Announce the turn of the current combatant, if there is one. -/
def announce (c : Combat) (table : Table) : Step Stage :=
  match c.current with
  | none => ⟨c, table, .ended (.turnOf none)⟩
  | some ref =>
    ⟨c, table.remark "combat" .debug
        ("Round " ++ toString c.round ++ ", turn of " ++ (table.token ref).name),
      .announcing ref⟩

/-- Open a combat, once initiative has been rolled. -/
def opening (c : Combat) (table : Table) : Step Stage :=
  let c := { c.sort table with round := 1, turn := 0, started := true }
  c.announce (table.remark "combat" .info ("Combat started: " ++ ", ".intercalate
    (c.combatants.map fun ref => (table.token ref).name ++ " (" ++
      initiativeText (table.token ref).initiative ++ ")")))

/-- Go from place to place for a living combatant. At the end of the order a new round begins,
with a batch of rolls before its first place is looked at. Without anyone alive this has no
end, so it is given up after a number of rounds in which nothing has to be waited for. -/
def seek : Nat → Combat → Table → Step Stage
  | 0, c, table => ⟨c, table, .adrift⟩
  | rounds + 1, c, table =>
    match c.livingFrom? table (c.turn + 1) with
    | some place => { c with turn := place }.announce table
    | none =>
      let c := { c with turn := 0, round := c.round + 1 }
      let table := table.remark "combat" .info ("Round " ++ toString c.round)
      match c.beginBatch table with
      | ⟨c, table, .failed mishap⟩ => ⟨c, table, .ended (.raised mishap)⟩
      | ⟨c, table, .paused ahead rolled⟩ => ⟨c, table, .resting ahead rolled⟩
      | ⟨c, table, .finished _⟩ =>
        if c.aliveAt table c.turn then c.announce table else seek rounds c table

/-- Rounds that are enough to come to someone alive, or to a pause: one may pass in which the
last candidates are rolled for, and after that nothing changes. -/
def enoughRounds : Nat := 3

/-- What an errand does when its batch has come to something. -/
def afterBatch (errand : Errand) : Step Batch → Step Stage
  | ⟨c, table, .failed mishap⟩ => ⟨c, table, .ended (.raised mishap)⟩
  | ⟨c, table, .paused ahead rolled⟩ => ⟨c, table, .resting ahead rolled⟩
  | ⟨c, table, .finished rolled⟩ => match errand with
    | .roll => ⟨c, table, .ended (.rolled rolled)⟩
    | .join => ⟨c, table, .ended .joined⟩
    | .start => c.opening table
    | .next => if c.aliveAt table c.turn then c.announce table else seek enoughRounds c table

/-- Start a combat: roll, sort, and announce the first turn. -/
def start (c : Combat) (table : Table) : Step Stage :=
  afterBatch .start (c.beginBatch table)

/-- Go on to the next turn, starting the combat if it has not started. -/
def next (c : Combat) (table : Table) : Errand × Step Stage :=
  if !c.started then (.start, c.start table)
  else if !c.anyAlive table then (.next, ⟨c, table, .ended (.turnOf none)⟩)
  else (.next, seek enoughRounds c table)

/-- Roll for everyone who waits for a roll. -/
def roll (c : Combat) (table : Table) : Step Stage :=
  afterBatch .roll (c.beginBatch table)

/-- Let a token join at the end of the order; one that is flagged rolls right away. -/
def join (c : Combat) (table : Table) (ref : TokenRef) : Step Stage :=
  let c := { c with combatants := c.combatants ++ [ref] }
  if (table.token ref).autoInitiative then afterBatch .join (c.beginBatch table)
  else ⟨c, table, .ended .joined⟩

/-- Go on after the pause between two rolls. -/
def rested (c : Combat) (table : Table) (errand : Errand) (ahead : List TokenRef) (rolled : Nat) :
    Step Stage :=
  afterBatch errand (c.continueBatch table ahead rolled)

end Combat
end TurnScript
