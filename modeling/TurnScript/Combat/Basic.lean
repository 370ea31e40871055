import TurnScript.Play.Table

/-!
# Combat

A combat keeps its combatants in order and knows whose turn it is, in which round. Tokens
that are flagged for it, and may be driven, roll their initiative; all others keep what they
have. Combatants without initiative come last.

Rolls are made in a batch, with a pause between two rolls if there is a delay. Only one
batch is under way at a time. A batch is made for the candidates that it finds when it
begins; one that has got an initiative by the time it is reached is passed over.
-/

namespace TurnScript

/-- A listener is told of every turn. It may refuse the turns of one token, and it may have
the turn's script run. -/
structure Listener where
  refuses : Option String := none
  runsScripts : Bool := false
  deriving Repr, DecidableEq, Inhabited

/-- The order of a combat and where it stands. -/
structure Combat where
  combatants : List TokenRef
  /-- The tokens that may be driven; all of them if nothing is named. -/
  owned : Option (List String) := none
  /-- In milliseconds, between two rolls. -/
  rollDelay : Int := 0
  listeners : List Listener := []
  round : Nat := 0
  turn : Nat := 0
  started : Bool := false
  /-- Whether a batch of rolls is under way. -/
  rolling : Bool := false
  deriving Repr, DecidableEq, Inhabited

namespace Combat

/-- The combatant whose turn it is. -/
def current (c : Combat) : Option TokenRef :=
  if c.started then c.combatants[c.turn]? else none

/-- Whether initiative can be rolled for a token: it is flagged, may be driven, and has none. -/
def awaitsRoll (c : Combat) (token : Token) : Bool :=
  token.initiative.isNone && token.autoInitiative && token.isAmong c.owned

/-- The combatants that wait for a roll. -/
def candidates (c : Combat) (table : Table) : List TokenRef :=
  c.combatants.filter fun ref => c.awaitsRoll (table.token ref)

/-- Whether one initiative goes before another or beside it: the higher one first, none last. -/
def initiativeBefore : Option Int → Option Int → Bool
  | some a, some b => decide (b ≤ a)
  | some _, none => true
  | none, some _ => false
  | none, none => true

/-- Sort by initiative; equals stay as they are. -/
def sort (c : Combat) (table : Table) : Combat :=
  { c with combatants := c.combatants.mergeSort fun a b =>
      initiativeBefore (table.token a).initiative (table.token b).initiative }

/-- Whether the combatant at a place is alive. -/
def aliveAt (c : Combat) (table : Table) (place : Nat) : Bool :=
  (c.combatants[place]?).any fun ref => (table.token ref).alive

/-- The first place from `start` on at which a combatant is alive. -/
def livingFrom? (c : Combat) (table : Table) (start : Nat) : Option Nat :=
  ((c.combatants.drop start).findIdx? fun ref => (table.token ref).alive).map (start + ·)

/-- Whether any combatant is alive. -/
def anyAlive (c : Combat) (table : Table) : Bool :=
  c.combatants.any fun ref => (table.token ref).alive

/-- The number of an initiative in a remark. -/
def initiativeText : Option Int → String
  | some n => toString n
  | none => "None"

/-- Clear the initiative of the flagged combatants; tells how many had one. -/
def reset (c : Combat) (table : Table) : Nat × Table :=
  let (cleared, table) := c.combatants.foldl (fun (cleared, table) ref =>
    let token := table.token ref
    if token.autoInitiative && token.initiative.isSome then
      (cleared + 1, table.change ref fun t => { t with initiative := none })
    else (cleared, table)) (0, table)
  (cleared, if cleared = 0 then table
    else table.remark "combat" .info
      ("Reset initiative for " ++ toString cleared ++ " combatant(s)"))

/-- Flag a token for initiative or take the flag away; tells whether it is flagged now. -/
def toggle (table : Table) (ref : TokenRef) : Bool × Table :=
  let flagged := !(table.token ref).autoInitiative
  (flagged, (table.change ref fun t => { t with autoInitiative := flagged }).remark "combat" .info
    ("Auto-initiative " ++ (if flagged then "enabled" else "disabled") ++ " for " ++
      (table.token ref).name))

/-- What anyone can see of a combat. -/
structure View where
  round : Nat
  turn : Nat
  started : Bool
  current : Option String
  order : List (String × Option Int)
  deriving Repr, DecidableEq

/-- The view of a combat. -/
def view (c : Combat) (table : Table) : View :=
  ⟨c.round, c.turn, c.started, c.current.map fun ref => (table.token ref).id,
    c.combatants.map fun ref => ((table.token ref).id, (table.token ref).initiative)⟩

/-- Sorting changes only the order of the combatants. -/
theorem sort_perm (c : Combat) (table : Table) :
    (c.sort table).combatants.Perm c.combatants :=
  List.mergeSort_perm _ _

/-- The candidates for a roll are the combatants that are flagged, may be driven and have no
initiative. -/
theorem mem_candidates {c : Combat} {table : Table} {ref : TokenRef} :
    ref ∈ c.candidates table ↔ ref ∈ c.combatants ∧ c.awaitsRoll (table.token ref) = true := by
  simp [candidates]

end Combat
end TurnScript
