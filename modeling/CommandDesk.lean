import CommandDesk.Catalog
import CommandDesk.Cli.Call
import CommandDesk.Cli.Edit
import CommandDesk.Cli.Refusal
import CommandDesk.Cli.Run
import CommandDesk.Cli.Signals
import CommandDesk.Cli.Table
import CommandDesk.Cli.View
import CommandDesk.Cli.Words
import CommandDesk.Command.Basic
import CommandDesk.Command.InputRef
import CommandDesk.Command.Name
import CommandDesk.Command.Param
import CommandDesk.Config.Basic
import CommandDesk.Config.Document
import CommandDesk.Config.Validation
import CommandDesk.Confirmation
import CommandDesk.Context
import CommandDesk.Decimal.Count
import CommandDesk.Decimal.Notation
import CommandDesk.Decimal.Reader
import CommandDesk.Decimal.Shortest
import CommandDesk.Desk
import CommandDesk.Error
import CommandDesk.Files
import CommandDesk.Grade
import CommandDesk.Hack.Basic
import CommandDesk.Hack.Injection
import CommandDesk.Hack.Standard
import CommandDesk.Main
import CommandDesk.Mapping
import CommandDesk.Node.Bare
import CommandDesk.Node.Basic
import CommandDesk.Node.Codec
import CommandDesk.Node.JsonPrinter
import CommandDesk.Node.JsonReader
import CommandDesk.Node.Sorted
import CommandDesk.Progress
import CommandDesk.Project
import CommandDesk.Proofs.Config.Stages
import CommandDesk.Proofs.Confirmation.Course
import CommandDesk.Proofs.Desk.Resolve
import CommandDesk.Proofs.Mapping.Direct
import CommandDesk.Proofs.Mapping.Reference
import CommandDesk.Proofs.Ranking
import CommandDesk.Proofs.Synonym.Edits
import CommandDesk.Protocol
import CommandDesk.Risk
import CommandDesk.Session.Basic
import CommandDesk.Session.Line
import CommandDesk.Snapshot
import CommandDesk.Suggestion
import CommandDesk.Synonym.Distance
import CommandDesk.Synonym.Score
import CommandDesk.Synonym.Vocabulary
import CommandDesk.Table
import CommandDesk.Text.Blank
import CommandDesk.Text.Cased
import CommandDesk.Text.Cut
import CommandDesk.Text.Lowercase
import CommandDesk.Timeline
import CommandDesk.Trigger
import CommandDesk.Worded
import CommandDesk.Yaml.Basic
import CommandDesk.Yaml.Cursor
import CommandDesk.Yaml.Printer
import CommandDesk.Yaml.Reader
import CommandDesk.Yaml.Scalar
import CommandDesk.Yaml.Scan
import CommandDesk.Yaml.Token
import CommandDesk.Proofs.Protocol.Precedence
import CommandDesk.Proofs.Protocol.LargeTask
import CommandDesk.Proofs.Decimal.Digits
import CommandDesk.Proofs.Confirmation.Numbers
import CommandDesk.Proofs.Command.Name
import CommandDesk.Proofs.Config.Names
import CommandDesk.Proofs.Desk.Repair
import CommandDesk.Proofs.Desk.Retarget
import CommandDesk.Proofs.Hack
import CommandDesk.Proofs.Hack.Box
import CommandDesk.Proofs.Text.Lines
import CommandDesk.Proofs.Progress
import CommandDesk.Proofs.Progress.Crossing
import CommandDesk.Proofs.Progress.Outcome
import CommandDesk.Proofs.Suggestion.WayOut
import CommandDesk.Proofs.Trigger.Severity
import CommandDesk.Proofs.Timeline
import CommandDesk.Proofs.Desk.Enhance
import CommandDesk.Proofs.Desk.Milestones
import CommandDesk.Proofs.Config.Validation
import CommandDesk.Proofs.Text.Words
import CommandDesk.Proofs.Command.InputRef
import CommandDesk.Proofs.Session.Line
import CommandDesk.Proofs.Session.Pending
import CommandDesk.Proofs.Session.Refusal
import CommandDesk.Proofs.Mapping.Unknown
import CommandDesk.Proofs.Config.Clean
import CommandDesk.Proofs.Config.Edits
import CommandDesk.Proofs.Synonym.Weight
import CommandDesk.Proofs.Synonym.History
import CommandDesk.Proofs.Config.Removal
import CommandDesk.Proofs.Config.Switches
import CommandDesk.Proofs.Node.Codec
import CommandDesk.Proofs.Node.Record
import CommandDesk.Proofs.Documents.Command
import CommandDesk.Proofs.Documents.Check
import CommandDesk.Proofs.Documents.Answer
import CommandDesk.Proofs.Documents.Config
import CommandDesk.Proofs.Documents.Json
import CommandDesk.Proofs.Distance.Script
import CommandDesk.Proofs.Catalog
import CommandDesk.Proofs.Cli.Writes
import CommandDesk.Proofs.Desk.Irreversible
import CommandDesk.Proofs.Distance.Metric
import CommandDesk.Proofs.Mapping.Place
import CommandDesk.Proofs.Mapping.Agreement
import CommandDesk.Proofs.Hack.Wrapping
import CommandDesk.Proofs.Command.Grammar
import CommandDesk.Proofs.Catalog.Supplied
