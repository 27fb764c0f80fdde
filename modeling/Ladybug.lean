import Ladybug.Automaton.Basic
import Ladybug.Automaton.Check
import Ladybug.Automaton.Edit
import Ladybug.Automaton.Phase
import Ladybug.Automaton.Run
import Ladybug.Budget
import Ladybug.Console.Arguments
import Ladybug.Console.Request
import Ladybug.Console.Run
import Ladybug.Datum
import Ladybug.Datum.Key
import Ladybug.Datum.Shown
import Ladybug.Decimal.Arithmetic
import Ladybug.Decimal.Binary
import Ladybug.Decimal.Read
import Ladybug.Decimal.Shortest
import Ladybug.Decimal.Whole
import Ladybug.Exchange.AutomatonXml
import Ladybug.Exchange.Catalog
import Ladybug.Exchange.Detect
import Ladybug.Exchange.Json
import Ladybug.Exchange.Refusal
import Ladybug.Exchange.WorldXml
import Ladybug.Exchange.Xml
import Ladybug.Fault
import Ladybug.Files
import Ladybug.Ident
import Ladybug.Instant.Basic
import Ladybug.Instant.Read
import Ladybug.Intake.Automaton
import Ladybug.Intake.Basic
import Ladybug.Intake.Fault
import Ladybug.Intake.Instant
import Ladybug.Intake.Progress
import Ladybug.Intake.Scenario
import Ladybug.Intake.World
import Ladybug.Intake.Written
import Ladybug.Json.Reader
import Ladybug.Json.Writer
import Ladybug.Main
import Ladybug.Path
import Ladybug.Progress.Basic
import Ladybug.Progress.Store
import Ladybug.Proofs.Automaton.Edited
import Ladybug.Proofs.Automaton.Meaning
import Ladybug.Proofs.Automaton.Phased
import Ladybug.Proofs.Automaton.Renamed
import Ladybug.Proofs.Automaton.Reported
import Ladybug.Proofs.Automaton.Validated
import Ladybug.Proofs.Decimal
import Ladybug.Proofs.Decimal.Rounding
import Ladybug.Proofs.Decimal.Shortest
import Ladybug.Proofs.Exchange.AutomatonElement
import Ladybug.Proofs.Exchange.AutomatonJson
import Ladybug.Proofs.Exchange.AutomatonXml
import Ladybug.Proofs.Exchange.Documents
import Ladybug.Proofs.Ident
import Ladybug.Proofs.Intake
import Ladybug.Proofs.Intake.Automaton
import Ladybug.Proofs.Json.Floats
import Ladybug.Proofs.Json.Given
import Ladybug.Proofs.Json.Scalars
import Ladybug.Proofs.Json.Texts
import Ladybug.Proofs.Script.Braces
import Ladybug.Proofs.Script.Bracketed
import Ladybug.Proofs.Script.Calls
import Ladybug.Proofs.Script.Conditions
import Ladybug.Proofs.Script.Cursor
import Ladybug.Proofs.Script.Depth
import Ladybug.Proofs.Script.Dialects
import Ladybug.Proofs.Script.Ends
import Ladybug.Proofs.Script.Execution
import Ladybug.Proofs.Script.Fitting
import Ladybug.Proofs.Script.Followed
import Ladybug.Proofs.Script.Indents
import Ladybug.Proofs.Script.LaidOut
import Ladybug.Proofs.Script.Local
import Ladybug.Proofs.Script.Printed
import Ladybug.Proofs.Script.Resumed
import Ladybug.Proofs.Script.RoundTrip
import Ladybug.Proofs.Script.Scanned
import Ladybug.Proofs.Script.Shape
import Ladybug.Proofs.Script.Statements
import Ladybug.Proofs.Script.Surroundings
import Ladybug.Proofs.Script.Total
import Ladybug.Proofs.Script.Unlined
import Ladybug.Proofs.Script.Written
import Ladybug.Proofs.Session.Safe
import Ladybug.Proofs.Session.Skipped
import Ladybug.Proofs.Text
import Ladybug.Proofs.World.Grid
import Ladybug.Proofs.World.Kept
import Ladybug.Proofs.World.Leads
import Ladybug.Proofs.World.Points
import Ladybug.Proofs.World.Runs
import Ladybug.Proofs.Xml.Documents
import Ladybug.Proofs.Xml.Tags
import Ladybug.Runner
import Ladybug.Scenario.Basic
import Ladybug.Scenario.Builtin
import Ladybug.Scenario.Goal
import Ladybug.Script.Agenda
import Ladybug.Script.Condition
import Ladybug.Script.Dialect
import Ladybug.Script.Interpreter
import Ladybug.Script.Lines
import Ladybug.Script.Mistake
import Ladybug.Script.Parse
import Ladybug.Script.Scan
import Ladybug.Script.Statement
import Ladybug.Script.Token
import Ladybug.Script.Tree
import Ladybug.Session
import Ladybug.Settings
import Ladybug.Text.Base64
import Ladybug.Text.Blank
import Ladybug.Text.Bytes
import Ladybug.Text.Case
import Ladybug.Text.Digit
import Ladybug.Text.Half
import Ladybug.Text.Line
import Ladybug.Text.Printable
import Ladybug.Text.Quoted
import Ladybug.Text.Word
import Ladybug.Word
import Ladybug.World.Basic
import Ladybug.World.Command
import Ladybug.World.Layout
import Ladybug.World.Picture
import Ladybug.World.Sensor
import Ladybug.World.Template
import Ladybug.Xml.Declared
import Ladybug.Xml.Element
import Ladybug.Xml.Entity
import Ladybug.Xml.Name
import Ladybug.Xml.Prolog
import Ladybug.Xml.Reader
import Ladybug.Xml.Token
import Ladybug.Yaml.Content
import Ladybug.Yaml.Cursor
import Ladybug.Yaml.Looks
import Ladybug.Yaml.Moment
import Ladybug.Yaml.Node
import Ladybug.Yaml.Outline
import Ladybug.Yaml.Reader
import Ladybug.Yaml.Scalar
import Ladybug.Yaml.Text
import Ladybug.Yaml.Token
import Ladybug.Proofs.Limits
import Ladybug.Proofs.StraightLine
import Ladybug.Proofs.Script.Grammar
import Ladybug.Proofs.Script.Idle
import Ladybug.Proofs.Json.Written
import Ladybug.Proofs.Exchange.Resaved
import Ladybug.Proofs.Exchange.WorldJson
import Ladybug.Proofs.Exchange.LayoutXml
import Ladybug.Proofs.Exchange.WorldXml
import Ladybug.Proofs.Exchange.WorldRead
import Ladybug.Proofs.Exchange.WorldResaved
import Ladybug.Proofs.Exchange.StatesRead
import Ladybug.Proofs.Exchange.AutomatonRead
import Ladybug.Proofs.Exchange.AutomatonNames
import Ladybug.Proofs.Ident.Slug
import Ladybug.Proofs.Exchange.StateIds
import Ladybug.Proofs.Automaton.Rewired
import Ladybug.Proofs.Xml.Values
import Ladybug.Proofs.Files
import Ladybug.Proofs.Instant
import Ladybug.Proofs.Json.Ascii
import Ladybug.Proofs.Progress.Attempts
import Ladybug.Proofs.Automaton.Protocol
import Ladybug.Proofs.Automaton.Affected
import Ladybug.Proofs.Script.Places
import Ladybug.Proofs.World.Hindered
import Ladybug.Proofs.World.Layouts
import Ladybug.Proofs.World.Stepped
import Ladybug.Proofs.World.Undone
import Ladybug.Proofs.Instant.Calendar
import Ladybug.Proofs.Intake.Given
import Ladybug.Proofs.Intake.Instant
import Ladybug.Proofs.Intake.Progress
import Ladybug.Proofs.Progress.Held
import Ladybug.Proofs.Progress.Damaged
import Ladybug.Proofs.Scenario.Solved
import Ladybug.Proofs.Console.Solve
