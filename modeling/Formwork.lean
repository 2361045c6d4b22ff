import Formwork.Application.App
import Formwork.Application.Builtin
import Formwork.Application.Settings
import Formwork.Application.Startup
import Formwork.Calendar.Date
import Formwork.Calendar.Iso
import Formwork.Context.Case
import Formwork.Context.Lookup
import Formwork.Context.Scope
import Formwork.Display
import Formwork.Document.Datum
import Formwork.Document.Delta
import Formwork.Document.Fault
import Formwork.Document.Field
import Formwork.Document.FieldKind
import Formwork.Document.Files
import Formwork.Document.Form
import Formwork.Document.FormReader
import Formwork.Document.Grouping
import Formwork.Document.LoadResult
import Formwork.Document.Loading
import Formwork.Document.Reader
import Formwork.Document.Writer
import Formwork.Files.Path
import Formwork.Files.Tree
import Formwork.Json.Reader
import Formwork.Json.Writer
import Formwork.Number.Binary64
import Formwork.Number.Numeral
import Formwork.Number.Shortest
import Formwork.Ordered
import Formwork.Pattern.Expression
import Formwork.Pattern.Match
import Formwork.Pattern.Reader
import Formwork.Proofs.Reference.Fixpoint
import Formwork.Proofs.Reference.Outcome
import Formwork.Proofs.Rehydration.LastEdit
import Formwork.Proofs.Rehydration.Standing
import Formwork.Proofs.Schema.Cardinality
import Formwork.Proofs.Template.Scoping
import Formwork.Reference.Collection
import Formwork.Reference.Error
import Formwork.Reference.Repeatable
import Formwork.Reference.Resolution
import Formwork.Reference.Splice
import Formwork.Reference.Suffix
import Formwork.Registry.Basic
import Formwork.Registry.Directory
import Formwork.Registry.Summary
import Formwork.Rehydration.Coordinator
import Formwork.Rehydration.Error
import Formwork.Rehydration.Timeline
import Formwork.Remote.Exchange
import Formwork.Remote.Rules
import Formwork.Remote.SubForms
import Formwork.Rules.Merge
import Formwork.Schema.Error
import Formwork.Schema.FieldSchema
import Formwork.Schema.GroupSchema
import Formwork.Schema.Rule
import Formwork.Schema.Schema
import Formwork.Template.Error
import Formwork.Template.Evaluation
import Formwork.Template.Evaluator
import Formwork.Template.Expression
import Formwork.Template.Helper
import Formwork.Template.Node
import Formwork.Template.Operand
import Formwork.Template.Printed
import Formwork.Template.Rule
import Formwork.Template.Tag
import Formwork.Template.Token
import Formwork.Text.Blank
import Formwork.Text.CaseMap
import Formwork.Text.Digit
import Formwork.Text.Lines
import Formwork.Text.Printable
import Formwork.Text.Quoted
import Formwork.Text.Search
import Formwork.Text.Word
import Formwork.Tool.Arguments
import Formwork.Tool.Call
import Formwork.Tool.Form
import Formwork.Tool.Markdown
import Formwork.Tool.Refusal
import Formwork.Tool.Rules
import Formwork.Tool.SummaryReader
import Formwork.Tool.Target
import Formwork.Value
import Formwork.Values.ErrorTree
import Formwork.Values.Initial
import Formwork.Values.Payload
import Formwork.Values.State
import Formwork.Yaml.Cursor
import Formwork.Yaml.Document
import Formwork.Yaml.Node
import Formwork.Yaml.Scalar
import Formwork.Yaml.ScalarText
import Formwork.Yaml.Token
import Formwork.Proofs.Document.Record
import Formwork.Proofs.Rules.Overlay
import Formwork.Proofs.Document.Valid
import Formwork.Proofs.Document.RoundTrip
import Formwork.Proofs.Rules.Wire
import Formwork.Proofs.Reference.Validity
import Formwork.Proofs.Values.Defaults
import Formwork.Proofs.Values.SentBack
import Formwork.Proofs.Values.ErrorTree
import Formwork.Proofs.Values.Readback
import Formwork.Proofs.Context.Change
import Formwork.Proofs.Rehydration.Agreement
import Formwork.Proofs.Schema.Members
import Formwork.Proofs.Template.Cutting
import Formwork.Proofs.Template.Literal
import Formwork.Proofs.Rehydration.Closing
import Formwork.Proofs.Document.Pipeline
import Formwork.Proofs.Schema.Overflow
import Formwork.Proofs.Values.Shape
import Formwork.Proofs.Values.Typed
import Formwork.Proofs.Reference.Instances
import Formwork.Proofs.Template.Native
import Formwork.Proofs.Document.Loading
import Formwork.Proofs.Yaml.Building
import Formwork.Proofs.Schema.Faults
import Formwork.Proofs.Reference.Templates
import Formwork.Proofs.Reference.Occurrence
import Formwork.Proofs.Reference.Namespacing
import Formwork.Proofs.Reference.Ahead
import Formwork.Proofs.Reference.Prepared
import Formwork.Proofs.Reference.Hops
import Formwork.Proofs.Loop
import Formwork.Proofs.Reference.Queue
import Formwork.Proofs.Reference.Stack
import Formwork.Proofs.Template.Acceptance
import Formwork.Proofs.Template.Compilation
import Formwork.Proofs.Values.Payload
import Formwork.Proofs.Template.Mentions
import Formwork.Proofs.Template.Equality
import Formwork.Proofs.Template.MemberKey
import Formwork.Proofs.Rules.Commuting
import Formwork.Proofs.Schema.Chain
import Formwork.Proofs.Schema.Blank
import Formwork.Proofs.Number.Numeric
import Formwork.Proofs.Number.Rounding
import Formwork.Proofs.Number.Written
import Formwork.Proofs.Number.Coercion
import Formwork.Proofs.Schema.Comparison
import Formwork.Proofs.Values.Meaning
import Formwork.Proofs.Context.Unchanged
import Formwork.Proofs.Context.Tracking
import Formwork.Proofs.Registry.Policy
import Formwork.Proofs.Rehydration.Cycle
import Formwork.Proofs.Document.LoadChain
import Formwork.Proofs.Template.Derivation
import Formwork.Proofs.Values.Congruence
import Formwork.Proofs.Template.Gaps
import Formwork.Proofs.Template.Spacing
import Formwork.Proofs.Template.Lexemes
import Formwork.Proofs.Context.Lookup
import Formwork.Proofs.Registry.Counts
import Formwork.Proofs.Template.Passes
import Formwork.Proofs.Template.Fronts
import Formwork.Proofs.Template.Comments
import Formwork.Proofs.Template.Escapes
