import SchemaLang.Compile.Basic
import SchemaLang.Compile.Chain
import SchemaLang.Compile.Declared
import SchemaLang.Compile.Member
import SchemaLang.Compile.Range
import SchemaLang.Compile.Setup
import SchemaLang.Document.Basic
import SchemaLang.Document.Text
import SchemaLang.Error
import SchemaLang.Expr.Agreement
import SchemaLang.Expr.Basic
import SchemaLang.Expr.Operator
import SchemaLang.Expr.Reference
import SchemaLang.Number.Binary64
import SchemaLang.Number.Layout
import SchemaLang.Number.Literal
import SchemaLang.Number.Numeral
import SchemaLang.Number.Shortest
import SchemaLang.Operation.Basic
import SchemaLang.Operation.Builtin
import SchemaLang.Operation.Call
import SchemaLang.Operation.Extension
import SchemaLang.Operation.Selection
import SchemaLang.Options.Basic
import SchemaLang.Options.Settings
import SchemaLang.Options.Toml
import SchemaLang.OrderedMap
import SchemaLang.Proofs.Compile.Closed
import SchemaLang.Proofs.Compile.Correspondence
import SchemaLang.Proofs.Compile.Ensures
import SchemaLang.Proofs.Compile.Equations
import SchemaLang.Proofs.Compile.Leading
import SchemaLang.Proofs.Compile.Leaves
import SchemaLang.Proofs.Compile.Members
import SchemaLang.Proofs.Compile.Mirrors
import SchemaLang.Proofs.Compile.Naming
import SchemaLang.Proofs.Compile.Outcome
import SchemaLang.Proofs.Compile.Paired
import SchemaLang.Proofs.Compile.Places
import SchemaLang.Proofs.Compile.Plain
import SchemaLang.Proofs.Compile.Removals
import SchemaLang.Proofs.Compile.Runs
import SchemaLang.Proofs.Compile.Shapes
import SchemaLang.Proofs.Compile.Spreading
import SchemaLang.Proofs.Compile.Statements
import SchemaLang.Proofs.Compile.Surface
import SchemaLang.Proofs.Compile.Traversal
import SchemaLang.Proofs.Compile.Upheld
import SchemaLang.Proofs.Compile.Upholding
import SchemaLang.Proofs.Compile.Verbatim
import SchemaLang.Proofs.Core.Array
import SchemaLang.Proofs.Core.Branches
import SchemaLang.Proofs.Core.Enumeration
import SchemaLang.Proofs.Core.Faithful
import SchemaLang.Proofs.Core.Meaning
import SchemaLang.Proofs.Core.Object
import SchemaLang.Proofs.Core.Preservation
import SchemaLang.Proofs.Error
import SchemaLang.Proofs.Expr.Layers
import SchemaLang.Proofs.Expr.Likeness
import SchemaLang.Proofs.Expr.Parts
import SchemaLang.Proofs.Expr.Reflexive
import SchemaLang.Proofs.Number.Value
import SchemaLang.Proofs.Operation.Arguments
import SchemaLang.Proofs.Operation.Directives
import SchemaLang.Proofs.Operation.Distinct
import SchemaLang.Proofs.Operation.Respects
import SchemaLang.Proofs.Operation.Upholds
import SchemaLang.Proofs.OrderedMap
import SchemaLang.Proofs.Resolution.Agreement
import SchemaLang.Proofs.Resolution.Circularity
import SchemaLang.Proofs.Resolution.Evolution
import SchemaLang.Proofs.Resolution.Locality
import SchemaLang.Proofs.Resolution.Loops
import SchemaLang.Proofs.Resolution.Machine
import SchemaLang.Proofs.Resolution.References
import SchemaLang.Proofs.Resolution.Simulation
import SchemaLang.Proofs.Resolution.Termination
import SchemaLang.Proofs.Schema.Closed
import SchemaLang.Proofs.Schema.Inlining
import SchemaLang.Proofs.Schema.Merging
import SchemaLang.Proofs.Schema.Properties
import SchemaLang.Proofs.Schema.Reconciling
import SchemaLang.Proofs.Schema.Removal
import SchemaLang.Proofs.Schema.Requiring
import SchemaLang.Proofs.Schema.Standard
import SchemaLang.Proofs.Schema.Statement
import SchemaLang.Proofs.Schema.Successive
import SchemaLang.Proofs.Schema.View
import SchemaLang.Proofs.Session.Comments
import SchemaLang.Proofs.Session.Commit
import SchemaLang.Proofs.Session.Declaring
import SchemaLang.Proofs.Session.Lazy
import SchemaLang.Proofs.Session.Leading
import SchemaLang.Proofs.Session.Reachable
import SchemaLang.Proofs.Validation.Keywords
import SchemaLang.Proofs.Validation.Rules
import SchemaLang.Registry.Basic
import SchemaLang.Registry.Builtin
import SchemaLang.Schema.Basic
import SchemaLang.Schema.Document
import SchemaLang.Schema.Merge
import SchemaLang.Schema.Property
import SchemaLang.Session
import SchemaLang.Source.Attachment
import SchemaLang.Source.Comparison
import SchemaLang.Source.Escape
import SchemaLang.Source.Grammar.Angle
import SchemaLang.Source.Grammar.Binding
import SchemaLang.Source.Grammar.Declaration
import SchemaLang.Source.Grammar.Expression
import SchemaLang.Source.Grammar.Operand
import SchemaLang.Source.Grammar.Statement
import SchemaLang.Source.Grammar.Tree
import SchemaLang.Source.Grammar.Typing
import SchemaLang.Source.Grammar.Words
import SchemaLang.Source.Outline
import SchemaLang.Source.Parser
import SchemaLang.Source.Phrase
import SchemaLang.Source.Read
import SchemaLang.Source.Reader
import SchemaLang.Source.Text
import SchemaLang.Source.Token
import SchemaLang.Span
import SchemaLang.Text.Class
import SchemaLang.Text.Hidden
import SchemaLang.Text.Marks
import SchemaLang.Text.Quoted
import SchemaLang.Version
import SchemaLang.Proofs.Compile.Association
import SchemaLang.Proofs.Compile.Listing
import SchemaLang.Proofs.Compile.Positional
import SchemaLang.Proofs.Operation.Choosing
import SchemaLang.Proofs.Compile.Choosing
import SchemaLang.Proofs.Schema.Document
import SchemaLang.Proofs.Compile.Switching
import SchemaLang.Proofs.Compile.Bounding
import SchemaLang.Proofs.Session.Recall
import SchemaLang.Proofs.Source.Regrouping
import SchemaLang.Proofs.Compile.Transfer
import SchemaLang.Proofs.Compile.NonNull
import SchemaLang.Proofs.Source.Attaching
import SchemaLang.Proofs.Source.Escaping
import SchemaLang.Proofs.Source.Extent
import SchemaLang.Proofs.Expr.Structure
import SchemaLang.Proofs.Number.Interval
import SchemaLang.Proofs.Number.Shortest
import SchemaLang.Proofs.Number.Reading
import SchemaLang.Proofs.Number.Rounding
import SchemaLang.Proofs.Number.Spelling
import SchemaLang.Proofs.Source.Lines
import SchemaLang.Proofs.Source.Positions
import SchemaLang.Proofs.Expr.NumberKeys
