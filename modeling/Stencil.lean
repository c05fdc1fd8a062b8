import Stencil.Bindings
import Stencil.Compiler
import Stencil.Context
import Stencil.Datum
import Stencil.Datum.Access
import Stencil.Decimal.Layout
import Stencil.Decimal.Read
import Stencil.Decimal.Shortest
import Stencil.Dependency
import Stencil.Diagnostic
import Stencil.Emission
import Stencil.Files
import Stencil.Json.Read
import Stencil.Json.Text
import Stencil.Log.Journal
import Stencil.Log.Record
import Stencil.Log.Scope
import Stencil.Metric
import Stencil.Number
import Stencil.Path
import Stencil.Proofs.Compiler.Accounts
import Stencil.Proofs.Compiler.Balance
import Stencil.Proofs.Compiler.Delivery
import Stencil.Proofs.Compiler.Identity
import Stencil.Proofs.Compiler.Lookup
import Stencil.Proofs.Compiler.Nesting
import Stencil.Proofs.Compiler.Notes
import Stencil.Proofs.Compiler.Quotation
import Stencil.Proofs.Compiler.Records
import Stencil.Proofs.Compiler.Restraint
import Stencil.Proofs.Compiler.Scratch
import Stencil.Proofs.Compiler.Search
import Stencil.Proofs.Compiler.Verdict
import Stencil.Proofs.Compiler.Work
import Stencil.Proofs.Context.Namespaces
import Stencil.Proofs.Datum.Fields
import Stencil.Proofs.Emission.Attribution
import Stencil.Proofs.Emission.Course
import Stencil.Proofs.Emission.Escape
import Stencil.Proofs.Emission.Gate
import Stencil.Proofs.Emission.Globals
import Stencil.Proofs.Emission.Identity
import Stencil.Proofs.Emission.Loading
import Stencil.Proofs.Emission.Location
import Stencil.Proofs.Emission.Naming
import Stencil.Proofs.Emission.Order
import Stencil.Proofs.Emission.Passage
import Stencil.Proofs.Emission.Position
import Stencil.Proofs.Emission.Public
import Stencil.Proofs.Emission.Reach
import Stencil.Proofs.Emission.Report
import Stencil.Proofs.Emission.Rereading
import Stencil.Proofs.Emission.Restraint
import Stencil.Proofs.Emission.Return
import Stencil.Proofs.Emission.Running
import Stencil.Proofs.Emission.Warnings
import Stencil.Proofs.Files.Folder
import Stencil.Proofs.Files.Path
import Stencil.Proofs.Files.Spelling
import Stencil.Proofs.Json.Quoted
import Stencil.Proofs.Json.Written
import Stencil.Proofs.Log.Entry
import Stencil.Proofs.Log.Readable
import Stencil.Proofs.Metric.Count
import Stencil.Proofs.Metric.History
import Stencil.Proofs.Number.Arithmetic
import Stencil.Proofs.Number.Integer
import Stencil.Proofs.Number.Rounding
import Stencil.Proofs.Number.Value
import Stencil.Proofs.Number.Whole
import Stencil.Proofs.Reference.Merged
import Stencil.Proofs.Report.Excerpt
import Stencil.Proofs.Script.Asking
import Stencil.Proofs.Script.Intact
import Stencil.Proofs.Script.Stop
import Stencil.Proofs.Template.History
import Stencil.Proofs.Text.Column
import Stencil.Proofs.Text.Conversion
import Stencil.Proofs.Text.Legible
import Stencil.Proofs.Text.Lines
import Stencil.Proofs.Text.Markup
import Stencil.Proofs.Text.Quoted
import Stencil.Proofs.TypeTerm.Alike
import Stencil.Proofs.TypeTerm.Built
import Stencil.Proofs.TypeTerm.Literal
import Stencil.Proofs.TypeTerm.Shape
import Stencil.Proofs.TypeTerm.Spelling
import Stencil.Proofs.TypeTerm.Unambiguous
import Stencil.Reference
import Stencil.Rehearsal
import Stencil.Report.Entry
import Stencil.Report.Failure
import Stencil.Report.Field
import Stencil.Script.Check
import Stencil.Script.Class
import Stencil.Script.Compare
import Stencil.Script.Declared
import Stencil.Script.Definition
import Stencil.Script.Evaluation
import Stencil.Script.Event
import Stencil.Script.Exchange
import Stencil.Script.Execution
import Stencil.Script.Expression
import Stencil.Script.Frame
import Stencil.Script.Import
import Stencil.Script.Interpreter
import Stencil.Script.Lexer
import Stencil.Script.Library
import Stencil.Script.Literal
import Stencil.Script.Machine
import Stencil.Script.Member
import Stencil.Script.Modules
import Stencil.Script.Operator
import Stencil.Script.Portrait
import Stencil.Script.Program
import Stencil.Script.Reading
import Stencil.Script.Routine.Basic
import Stencil.Script.Routine.Construct
import Stencil.Script.Routine.Container
import Stencil.Script.Routine.Service
import Stencil.Script.Routine.Table
import Stencil.Script.Routine.Text
import Stencil.Script.Sequence
import Stencil.Script.Shown
import Stencil.Script.Signature
import Stencil.Script.Statement
import Stencil.Script.Syntax
import Stencil.Script.Token
import Stencil.Script.Value
import Stencil.Source
import Stencil.Supply
import Stencil.Template
import Stencil.Text.Blank
import Stencil.Text.Case
import Stencil.Text.Column
import Stencil.Text.Hex
import Stencil.Text.Letter
import Stencil.Text.Lines
import Stencil.Text.Markup
import Stencil.Text.Percent
import Stencil.Text.Quoted
import Stencil.TypeTerm.Basic
import Stencil.TypeTerm.Build
import Stencil.TypeTerm.Name
import Stencil.TypeTerm.Portrait
import Stencil.Vocabulary
