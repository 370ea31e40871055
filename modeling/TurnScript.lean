import TurnScript.Board.Basic
import TurnScript.Board.Record
import TurnScript.Board.Scene
import TurnScript.Board.Targeting
import TurnScript.Board.Token
import TurnScript.Combat.Basic
import TurnScript.Combat.Errand
import TurnScript.Condition.Resource
import TurnScript.Condition.Threshold
import TurnScript.Condition.Verdict
import TurnScript.Console.Basic
import TurnScript.Console.Command
import TurnScript.Console.Directory
import TurnScript.Console.Display
import TurnScript.Console.Skirmish
import TurnScript.Dice.Check
import TurnScript.Dice.Formula
import TurnScript.Dice.Source
import TurnScript.Engine.Guard
import TurnScript.Engine.Run
import TurnScript.Json.Basic
import TurnScript.Json.Reader
import TurnScript.Json.Writer
import TurnScript.Ledger
import TurnScript.Logging
import TurnScript.Main
import TurnScript.Number.Binary64
import TurnScript.Number.Column
import TurnScript.Number.Extended
import TurnScript.Number.Int64
import TurnScript.Number.Shortest
import TurnScript.Ordered
import TurnScript.Path
import TurnScript.Play.Attack
import TurnScript.Play.ItemUse
import TurnScript.Play.Mishap
import TurnScript.Play.Movement
import TurnScript.Play.Nobody
import TurnScript.Play.Resources
import TurnScript.Play.Table
import TurnScript.Record.Fault
import TurnScript.Record.Lenient
import TurnScript.Script.Action
import TurnScript.Script.Kind
import TurnScript.Script.Order
import TurnScript.Script.Record
import TurnScript.Script.Report
import TurnScript.Session.Activity
import TurnScript.Session.Agenda
import TurnScript.Session.Alarm
import TurnScript.Session.Basic
import TurnScript.Session.Course
import TurnScript.Session.Encounter
import TurnScript.Session.Host
import TurnScript.Session.Nobody
import TurnScript.Session.Record
import TurnScript.Session.Turn
import TurnScript.Session.Use
import TurnScript.Settings.Basic
import TurnScript.Settings.Options
import TurnScript.Store.Archive
import TurnScript.Store.Cell
import TurnScript.Store.Exchange
import TurnScript.Store.Medium
import TurnScript.Store.Queue
import TurnScript.Text.Blank
import TurnScript.Text.Capital
import TurnScript.Text.Digit
import TurnScript.Text.Numeral
import TurnScript.Text.Quoted
import TurnScript.Text.Unseen
import TurnScript.Text.Word
import TurnScript.Proofs.Engine.Account
import TurnScript.Proofs.Engine.History
import TurnScript.Proofs.Engine.News
import TurnScript.Proofs.Engine.Recording
import TurnScript.Proofs.Engine.SingleFlight
import TurnScript.Proofs.Engine.Interpreter
import TurnScript.Proofs.Engine.Earliest
import TurnScript.Proofs.Engine.Stopping
import TurnScript.Proofs.Session.Holding
import TurnScript.Proofs.Session.Use
import TurnScript.Proofs.Session.Following
import TurnScript.Proofs.Session.Agenda
import TurnScript.Proofs.Session.Stopping
import TurnScript.Proofs.Number.Rounding
import TurnScript.Proofs.Number.Precision
import TurnScript.Proofs.Number.Shortest
import TurnScript.Proofs.Json.Strings
import TurnScript.Proofs.Json.Numerals
import TurnScript.Proofs.Json.RoundTrip
import TurnScript.Proofs.Json.Delivery
import TurnScript.Proofs.Script.Records
import TurnScript.Proofs.Store.Shelves
import TurnScript.Proofs.Store.Effects
import TurnScript.Proofs.Store.Refinement
import TurnScript.Proofs.Store.HandingOn
import TurnScript.Proofs.Engine.Renaming
import TurnScript.Proofs.Session.Performance
import TurnScript.Proofs.Session.Disguise
import TurnScript.Proofs.Session.Mirroring
import TurnScript.Proofs.Store.Copies
import TurnScript.Proofs.Play.Spending
import TurnScript.Proofs.Play.Bounds
import TurnScript.Proofs.Combat.Melee
import TurnScript.Proofs.Combat.Rounds
import TurnScript.Proofs.Script.ReadBack
import TurnScript.Proofs.Script.Cycles
import TurnScript.Proofs.Script.Reports
import TurnScript.Proofs.Store.Adoption
import TurnScript.Proofs.Engine.Visits
import TurnScript.Proofs.Engine.Notices
import TurnScript.Proofs.Play.Outcomes
import TurnScript.Proofs.Session.Verdicts
import TurnScript.Proofs.Script.Ordering
import TurnScript.Proofs.Store.Appending
import TurnScript.Proofs.Store.Places
import TurnScript.Proofs.Json.Overlong
import TurnScript.Proofs.Store.Refusals
import TurnScript.Proofs.Combat.Living
import TurnScript.Proofs.Store.Removal
import TurnScript.Proofs.Store.Editing
import TurnScript.Proofs.Store.Loading
import TurnScript.Proofs.Session.Corruption
import TurnScript.Proofs.Condition.Thresholds
import TurnScript.Proofs.Dice.Throws
import TurnScript.Proofs.Play.Aftermath
import TurnScript.Proofs.Board.Distance
import TurnScript.Proofs.Play.Routes
import TurnScript.Proofs.Play.Steps
import TurnScript.Proofs.Session.CallingOff
import TurnScript.Proofs.Session.Walking
import TurnScript.Proofs.Session.Limits
import TurnScript.Proofs.Condition.References
import TurnScript.Proofs.Condition.Denials
import TurnScript.Proofs.Combat.Batches
import TurnScript.Proofs.Combat.Search
import TurnScript.Proofs.Session.Quiet
import TurnScript.Proofs.Session.Progress
import TurnScript.Proofs.Session.Announcing
import TurnScript.Proofs.Session.Advancing
import TurnScript.Proofs.Play.Targets
import TurnScript.Proofs.Combat.Rolls
import TurnScript.Proofs.Combat.Pieces
import TurnScript.Proofs.Combat.Exclusion
import TurnScript.Proofs.Combat.Flags
import TurnScript.Proofs.Combat.Order
import TurnScript.Proofs.Session.Opening
import TurnScript.Proofs.Play.Sides
import TurnScript.Proofs.Play.Gate
import TurnScript.Proofs.Dice.Formulas
import TurnScript.Proofs.Board.Chronicle
import TurnScript.Proofs.Board.Registry
import TurnScript.Proofs.Engine.Provision
import TurnScript.Proofs.Engine.Branching
import TurnScript.Proofs.Board.Ownership
import TurnScript.Proofs.Console.Calls
import TurnScript.Proofs.Console.Background
import TurnScript.Proofs.Console.Closing
import TurnScript.Proofs.Console.Prompt
import TurnScript.Proofs.Console.Obeying
import TurnScript.Proofs.Console.Loop
