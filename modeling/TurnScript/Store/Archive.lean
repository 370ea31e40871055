import TurnScript.Json.Reader
import TurnScript.Json.Writer
import TurnScript.Script.Record
import TurnScript.Script.Report
import TurnScript.Store.Cell

/-!
# The archive of queues

The archive keeps one row for each subject: a version, whether its queue is enabled, and the
text of its actions. It also hands out the fresh ids of actions. A row is read back by
reading its text and checking every record in it; a row that does not pass is not loaded,
and a write that fails leaves every row as it was.
-/

namespace TurnScript

/-- A stored queue: the columns of its row. -/
structure Row where
  version : String
  enabled : Cell
  actions : Cell
  deriving Repr, DecidableEq

/-- Why the archive could not do what it was asked. -/
inductive StoreError where
  | load (subject : String)
  | save (subject : String)
  | notText
  | numeral (error : Text.NumeralError)
  | record (faults : List Record.Fault)
  | importSyntax (error : Json.ReadError)
  | importShape
  | importRecord (faults : List Record.Fault)
  /-- The data of an action is nested too deep to be written, or one of its numbers is too long. -/
  | unwritable
  /-- An edit names what says where it is made. -/
  | placeName (name : String)
  deriving Repr, DecidableEq

namespace StoreError

/-- Wording of a failure. -/
def message : StoreError → String
  | load subject => "Could not load action queue for " ++ subject
  | save subject => "Could not save action queue for " ++ subject
  | notText => "stored actions are not a text"
  | numeral error => error.message
  | record faults => toString faults.length ++ " fault(s) in an action record"
  | importSyntax error => "Queue import is not valid JSON: " ++ error.message
  | importShape => "Invalid queue data: expected an object with an 'actions' list"
  | importRecord faults =>
    "Invalid action record in import: " ++ toString faults.length ++ " fault(s)"
  | unwritable => "an action is nested too deep or has too long a number"
  | placeName name => name ++ " is no part of an action"

/-- Whether a failure is one of loading, saving or importing a queue, which callers expect;
the others are not foreseen. -/
def isExpected : StoreError → Bool
  | load _ | save _ | importSyntax _ | importShape | importRecord _ => true
  | notText | numeral _ | record _ | unwritable | placeName _ => false

end StoreError

/-- The rows of all subjects, and the supply of fresh ids. -/
structure Archive where
  /-- Rows by subject; nothing when there is no table to hold them. -/
  rows : Option (List (String × Row)) := some []
  /-- Version of the layout, if one was written. -/
  layout : Option Nat := some 1
  readOnly : Bool := false
  /-- Whether what is written outlasts the connection. -/
  durable : Bool := false
  supply : IdSupply := {}
  deriving Repr, DecidableEq, Inhabited

namespace Archive

/-- The row of a subject. -/
def row? (a : Archive) (subject : String) : Option Row :=
  a.rows.bind fun rows => Ordered.get? rows subject

/-- The actions in a stored text. A text that holds nothing is an empty list. -/
def readActions (supply : IdSupply) (subject : String) (cell : Cell) :
    Except StoreError (List Action) × IdSupply :=
  match cell with
  | .text text => match Json.read text with
    | .error (.numeral error) => (.error (.numeral error), supply)
    | .error _ => (.error (.load subject), supply)
    | .ok value =>
      if !value.isTruthy then (.ok [], supply)
      else match Action.readAll supply value with
        | (.ok actions, supply) => (.ok actions, supply)
        | (.refused _, supply) => (.error (.load subject), supply)
  | _ => (.error .notText, supply)

/-- Load the queue of a subject, if it has one. -/
def load (a : Archive) (subject : String) : Except StoreError (Option Envelope) × Archive :=
  match a.rows with
  | none => (.error (.load subject), a)
  | some rows => match Ordered.get? rows subject with
    | none => (.ok none, a)
    | some row =>
      let (actions, supply) := readActions a.supply subject row.actions
      (actions.map fun actions =>
        some { version := row.version, enabled := row.enabled.isTruthy, actions },
        { a with supply })

/-- The text of actions as it is stored. -/
def actionsText (actions : List Action) : String :=
  Json.text (.arr (actions.map Action.toRecord))

/-- The row that a queue is stored as. -/
def rowOf (envelope : Envelope) : Row :=
  { version := envelope.version
    enabled := .whole (if envelope.enabled then 1 else 0)
    actions := .text (actionsText envelope.actions) }

/-- Put a row in place. -/
def putRow (a : Archive) (subject : String) (row : Row) : Archive :=
  { a with rows := a.rows.map fun rows => Ordered.put rows subject row }

/-- Whether the table of queues can be written to. -/
def isOpen (a : Archive) : Bool :=
  a.rows.isSome && !a.readOnly

/-- Store the queue of a subject. -/
def save (a : Archive) (subject : String) (envelope : Envelope) :
    Except StoreError Unit × Archive :=
  if !envelope.isWritable then (.error .unwritable, a)
  else if !a.isOpen then (.error (.save subject), a)
  else (.ok (), a.putRow subject (rowOf envelope))

/-- Open an archive anew: what is durable is kept, the rest is gone, and missing tables are
made. -/
def reopen (a : Archive) : Archive :=
  { a with
    rows := if a.durable then some (a.rows.getD []) else some []
    layout := some 1
    readOnly := false }

/-- Close the connection. What is not durable is gone, tables and all. -/
def close (a : Archive) : Archive :=
  if a.durable then { a with readOnly := false }
  else { a with rows := none, layout := none, readOnly := false }

/-- Drop the table of queues. -/
def dropTable (a : Archive) : Archive :=
  { a with rows := none }

/-- Why a row could not be written from outside. -/
inductive RowError where
  | absent (column : String)
  | offer (error : Cell.OfferError)
  /-- There is no table, or nothing can be written to it. -/
  | unavailable
  /-- A column that may not be empty would be. -/
  | empty
  deriving Repr, DecidableEq

/-- A value for a column. -/
def offer (value : Json) : Except RowError (Option Cell) :=
  (Cell.ofJson? value).mapError .offer

/-- Write a row from outside, with no check but those of the table: its values are kept as the
columns keep them, and no column is empty. A version or a flag that is not named is the usual
one, and so is an empty flag. -/
def putRaw (a : Archive) (subject : String) (columns : Fields) : Except RowError Archive := do
  let actions ← match Json.get? columns "actions" with
    | some actions => pure actions
    | none => throw (.absent "actions")
  if a.rows.isNone then throw .unavailable
  let version ← offer ((Json.get? columns "version").getD (.str queueVersion))
  let enabled ← offer ((Json.get? columns "enabled").getD (.int 1))
  let actions ← offer actions
  if a.readOnly then throw .unavailable
  match version, actions with
  | some version, some actions =>
    return a.putRow subject ⟨version.keptText, (enabled.getD (.whole 1)).kept, actions.kept⟩
  | _, _ => throw .empty

end Archive
end TurnScript
