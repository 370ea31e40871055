import TurnScript.Session.Activity

/-!
# What the console shows

Lines with their markup, and tables: the order of combat, and the queue of a token. Rows of
the fallen and of disabled actions are dimmed.
-/

namespace TurnScript

/-- A table with a title and a heading for each column. -/
structure Grid where
  title : String
  columns : List String
  rows : List (List String × Bool)
  deriving Repr, DecidableEq

/-- Something that is shown. -/
inductive Shown where
  | line (text : String)
  | grid (grid : Grid)
  | status (status : Engine.Status String)
  deriving Repr, DecidableEq

namespace Display

/-- The commands there are. -/
def help : String :=
  "Commands: next | run [token] | status | stop | list [token] | check [token] | " ++
    "export <file> [token] | import <file> [append] | auto [token] | roll | reset | quit"

/-- A line in a color. -/
def inColor (color text : String) : Shown :=
  .line ("[" ++ color ++ "]" ++ text ++ "[/" ++ color ++ "]")

/-- A combatant's row, dimmed once it has fallen. -/
def combatantRow (token : Token) (isCurrent : Bool) : List String × Bool :=
  ([if isCurrent then "▶" else "", token.name, toString token.hp ++ "/" ++ toString token.maxHp,
    toString token.ac, toString token.position.x ++ ", " ++ toString token.position.y,
    match token.initiative with
    | some n => toString n
    | none => "-",
    if token.autoInitiative then "yes" else ""], !token.alive)

/-- The order of a combat. -/
def order (c : Combat) (table : Table) : Shown :=
  .grid ⟨"Round " ++ toString c.round, ["", "Token", "HP", "AC", "Position", "Init", "Auto"],
    c.combatants.map fun ref => combatantRow (table.token ref) (c.current == some ref)⟩

/-- A condition in few words. -/
def conditionText (condition : Condition) : String :=
  condition.kind.name ++ match nonempty condition.value with
    | some value => " " ++ value
    | none => ""

/-- The branches of an action in few words. -/
def branchText (action : Action) : String :=
  let branch (label : String) (target : Option String) : List String :=
    ((nonempty target).map (label ++ "->" ++ ·)).toList
  " ".intercalate (branch "ok" action.onSuccess ++ branch "fail" action.onFailure)

/-- The queue of a token. -/
def queue (token : Token) (enabled : Bool) (actions : List Action) : Shown :=
  .grid ⟨token.name ++ " (" ++ (if enabled then "enabled" else "disabled") ++ ")",
    ["#", "Id", "Name", "Type", "Condition", "Branches"],
    actions.map fun action =>
      ([toString action.order, action.id, action.name, action.kind.name,
        conditionText action.condition, branchText action], !action.enabled)⟩

/-- The line of one outcome: its message, or the kind of its error. -/
def outcomeLine (id : String) (outcome : Outcome) : Shown :=
  let color := if outcome.success then "green" else "red"
  let detail := if outcome.message.isEmpty then (outcome.errorKind.map (·.name)).getD ""
    else outcome.message
  .line ("  [" ++ color ++ "]" ++ id ++ "[/" ++ color ++ "] " ++ detail)

/-- What a run came to, if anything ran. -/
def summary : Option Summary → List Shown
  | none => [inColor "yellow" "Nothing ran (queue empty, disabled, or another run in progress)"]
  | some s =>
    s.results.map (fun (id, outcome) => outcomeLine id outcome) ++
      [inColor "bold" (toString s.executed ++ " executed, " ++ toString s.skipped ++ " skipped (" ++
        (if s.stopped then "stopped" else "done") ++ ")")]

/-- The report on a token's queue. -/
def report (token : Token) (r : Report) : List Shown :=
  (if r.ok then [inColor "green" (token.name ++ ": queue looks fine")] else []) ++
    r.problems.map (inColor "yellow")

end Display
end TurnScript
