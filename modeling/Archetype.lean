import Archetype.Bag
import Archetype.Bytes.Basic
import Archetype.Bytes.Digest
import Archetype.Bytes.Encoding
import Archetype.Bytes.Stream
import Archetype.Bytes.Utf16
import Archetype.Bytes.Utf8
import Archetype.Classifier
import Archetype.Command.Classify
import Archetype.Command.Ending
import Archetype.Command.Form
import Archetype.Command.Given
import Archetype.Command.Inspect
import Archetype.Command.Line
import Archetype.Command.Program
import Archetype.Command.Sources
import Archetype.Command.UsageFault
import Archetype.Command.Watching
import Archetype.Condition.Checker
import Archetype.Condition.Compiler
import Archetype.Condition.Expr
import Archetype.Condition.Issue
import Archetype.Condition.Kind
import Archetype.Condition.Meaning
import Archetype.Condition.Parser
import Archetype.Condition.Symbol
import Archetype.Condition.Token
import Archetype.Data.Count
import Archetype.Data.Datum
import Archetype.Data.Display
import Archetype.Data.Json
import Archetype.Decimal.Binary64
import Archetype.Decimal.Reading
import Archetype.Decimal.Shortest
import Archetype.Decimal.Text
import Archetype.Desk
import Archetype.Folder.Basic
import Archetype.Folder.Path
import Archetype.Host
import Archetype.Main
import Archetype.Outline.Line
import Archetype.Outline.Node
import Archetype.Outline.Reading
import Archetype.Proofs.Bytes.Utf8
import Archetype.Proofs.Classifier.Calls
import Archetype.Proofs.Classifier.Faults
import Archetype.Proofs.Classifier.History
import Archetype.Proofs.Classifier.Loading
import Archetype.Proofs.Classifier.Selecting
import Archetype.Proofs.Command.Records
import Archetype.Proofs.Condition.Bounds
import Archetype.Proofs.Condition.Checking
import Archetype.Proofs.Condition.Completing
import Archetype.Proofs.Condition.Counting
import Archetype.Proofs.Condition.Cursor
import Archetype.Proofs.Condition.CursorSafety
import Archetype.Proofs.Condition.CursorSteps
import Archetype.Proofs.Condition.Earliest
import Archetype.Proofs.Condition.Evaluation
import Archetype.Proofs.Condition.Fitting
import Archetype.Proofs.Condition.Grammar
import Archetype.Proofs.Condition.Inlining
import Archetype.Proofs.Condition.Lexemes
import Archetype.Proofs.Condition.Lexing
import Archetype.Proofs.Condition.Lookahead
import Archetype.Proofs.Condition.Mirroring
import Archetype.Proofs.Condition.Naming
import Archetype.Proofs.Condition.ParserCompleteness
import Archetype.Proofs.Condition.ParserLoops
import Archetype.Proofs.Condition.ParserSoundness
import Archetype.Proofs.Condition.Places
import Archetype.Proofs.Condition.Pointing
import Archetype.Proofs.Condition.Printing
import Archetype.Proofs.Condition.Relevance
import Archetype.Proofs.Condition.Respelling
import Archetype.Proofs.Condition.Reuse
import Archetype.Proofs.Condition.RoundTrip
import Archetype.Proofs.Condition.Soundness
import Archetype.Proofs.Condition.Spelling
import Archetype.Proofs.Condition.Typing
import Archetype.Proofs.Data.Equality
import Archetype.Proofs.Entries
import Archetype.Proofs.Folder.Writing
import Archetype.Proofs.Outcome
import Archetype.Proofs.Outline.Acceptance
import Archetype.Proofs.Outline.Appending
import Archetype.Proofs.Outline.BlankLines
import Archetype.Proofs.Outline.Branches
import Archetype.Proofs.Outline.Growth
import Archetype.Proofs.Outline.Linkage
import Archetype.Proofs.Outline.Positions
import Archetype.Proofs.Outline.Shape
import Archetype.Proofs.Outline.Traversal
import Archetype.Proofs.Outline.Writing
import Archetype.Proofs.Record.Arrangement
import Archetype.Proofs.Record.Faults
import Archetype.Proofs.Record.Likeness
import Archetype.Proofs.Record.Membership
import Archetype.Proofs.Record.Normal
import Archetype.Proofs.RuleTree.Appending
import Archetype.Proofs.RuleTree.Bare
import Archetype.Proofs.RuleTree.Compiling
import Archetype.Proofs.RuleTree.Depth
import Archetype.Proofs.RuleTree.Linking
import Archetype.Proofs.RuleTree.Matching
import Archetype.Proofs.RuleTree.Membership
import Archetype.Proofs.RuleTree.Positions
import Archetype.Proofs.RuleTree.References
import Archetype.Proofs.RuleTree.Refusals
import Archetype.Proofs.RuleTree.Relevance
import Archetype.Proofs.RuleTree.Values
import Archetype.Proofs.Settings.Loading
import Archetype.Proofs.Settings.Transfer
import Archetype.Proofs.Text.BlankLines
import Archetype.Proofs.Text.Lines
import Archetype.Proofs.Text.Search
import Archetype.Proofs.Watch.Memory
import Archetype.Proofs.Watch.Reports
import Archetype.Proofs.Watch.Scene
import Archetype.Record
import Archetype.RecordFile
import Archetype.RuleTree
import Archetype.Settings.Basic
import Archetype.Settings.File
import Archetype.Settings.Stored
import Archetype.Settings.Use
import Archetype.Text.Basic
import Archetype.Text.Blank
import Archetype.Text.Digit
import Archetype.Text.Halves
import Archetype.Text.Lines
import Archetype.Text.Numeral
import Archetype.Text.Plain
import Archetype.Text.Quoted
import Archetype.Text.Search
import Archetype.Text.Similar
import Archetype.Text.UpperCase
import Archetype.Text.Visible
import Archetype.Watch.Event
import Archetype.Watch.Pause
import Archetype.Watch.Reloader
import Archetype.Watch.Session
import Archetype.Yaml.Document
import Archetype.Yaml.Fault
import Archetype.Yaml.Node
import Archetype.Yaml.Scalar
import Archetype.Yaml.Source
import Archetype.Yaml.Timestamp
import Archetype.Yaml.Token
import Archetype.Yaml.Writer
