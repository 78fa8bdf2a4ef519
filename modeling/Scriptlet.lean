import Scriptlet.Action
import Scriptlet.Console.Arguments
import Scriptlet.Console.Script
import Scriptlet.Console.Shell
import Scriptlet.Editing.Backspace
import Scriptlet.Editing.Brackets
import Scriptlet.Editing.Completion
import Scriptlet.Editing.Highlight
import Scriptlet.Editing.Validation
import Scriptlet.Failure.Basic
import Scriptlet.Failure.Report
import Scriptlet.Grammar.Error
import Scriptlet.Grammar.Expression
import Scriptlet.Grammar.Operator
import Scriptlet.Grammar.Program
import Scriptlet.Grammar.Progress
import Scriptlet.Grammar.Reader
import Scriptlet.Grammar.Statement
import Scriptlet.Machine.Basic
import Scriptlet.Machine.Builtin
import Scriptlet.Machine.Error
import Scriptlet.Machine.Evaluation
import Scriptlet.Machine.Host
import Scriptlet.Machine.Operation
import Scriptlet.Machine.Session
import Scriptlet.Main
import Scriptlet.Number.Arithmetic
import Scriptlet.Number.Binary
import Scriptlet.Number.Layout
import Scriptlet.Number.Literal
import Scriptlet.Number.Shortest
import Scriptlet.Proofs.Approximation
import Scriptlet.Proofs.Contract
import Scriptlet.Proofs.Editing.Colouring
import Scriptlet.Proofs.Editing.Completing
import Scriptlet.Proofs.Editing.Offsets
import Scriptlet.Proofs.Editing.Pairing
import Scriptlet.Proofs.Editing.Scanning
import Scriptlet.Proofs.Editing.Visits
import Scriptlet.Proofs.Eventual
import Scriptlet.Proofs.Grammar.Concatenation
import Scriptlet.Proofs.Grammar.Derivation
import Scriptlet.Proofs.Grammar.Excerpt
import Scriptlet.Proofs.Grammar.ExpressionReading
import Scriptlet.Proofs.Grammar.Extent
import Scriptlet.Proofs.Grammar.Giving
import Scriptlet.Proofs.Grammar.Grouping
import Scriptlet.Proofs.Grammar.Headway
import Scriptlet.Proofs.Grammar.Layered
import Scriptlet.Proofs.Grammar.Layout
import Scriptlet.Proofs.Grammar.Lookahead
import Scriptlet.Proofs.Grammar.Nested
import Scriptlet.Proofs.Grammar.Onward
import Scriptlet.Proofs.Grammar.Parts
import Scriptlet.Proofs.Grammar.Passes
import Scriptlet.Proofs.Grammar.Placed
import Scriptlet.Proofs.Grammar.Precedence
import Scriptlet.Proofs.Grammar.Prolonging
import Scriptlet.Proofs.Grammar.Regrouping
import Scriptlet.Proofs.Grammar.Relocation
import Scriptlet.Proofs.Grammar.Rendering
import Scriptlet.Proofs.Grammar.Resuming
import Scriptlet.Proofs.Grammar.RoundTrip
import Scriptlet.Proofs.Grammar.Script
import Scriptlet.Proofs.Grammar.Shifting
import Scriptlet.Proofs.Grammar.Soundness
import Scriptlet.Proofs.Grammar.StatementReading
import Scriptlet.Proofs.Machine.Blame
import Scriptlet.Proofs.Machine.Blank
import Scriptlet.Proofs.Machine.CallDepth
import Scriptlet.Proofs.Machine.CallTree
import Scriptlet.Proofs.Machine.Code
import Scriptlet.Proofs.Machine.Continues
import Scriptlet.Proofs.Machine.Course
import Scriptlet.Proofs.Machine.Declarations
import Scriptlet.Proofs.Machine.Domain
import Scriptlet.Proofs.Machine.Echo
import Scriptlet.Proofs.Machine.Effect
import Scriptlet.Proofs.Machine.Encapsulation
import Scriptlet.Proofs.Machine.Eventual
import Scriptlet.Proofs.Machine.Increment
import Scriptlet.Proofs.Machine.Likeness
import Scriptlet.Proofs.Machine.Limit
import Scriptlet.Proofs.Machine.Making
import Scriptlet.Proofs.Machine.Omission
import Scriptlet.Proofs.Machine.Outline
import Scriptlet.Proofs.Machine.Plain
import Scriptlet.Proofs.Machine.Plan
import Scriptlet.Proofs.Machine.Preservation
import Scriptlet.Proofs.Machine.Provenance
import Scriptlet.Proofs.Machine.Reached
import Scriptlet.Proofs.Machine.Renaming
import Scriptlet.Proofs.Machine.Request
import Scriptlet.Proofs.Machine.Signals
import Scriptlet.Proofs.Machine.Simulation
import Scriptlet.Proofs.Machine.Stage
import Scriptlet.Proofs.Machine.Truncation
import Scriptlet.Proofs.Machine.Ways
import Scriptlet.Proofs.Number.Layout
import Scriptlet.Proofs.Number.Rounding
import Scriptlet.Proofs.Scope.Apart
import Scriptlet.Proofs.Scope.Bound
import Scriptlet.Proofs.Scope.Chain
import Scriptlet.Proofs.Scope.Frames
import Scriptlet.Proofs.Scope.Lookup
import Scriptlet.Proofs.Scope.Reach
import Scriptlet.Proofs.Scope.Renaming
import Scriptlet.Proofs.Scope.Visibility
import Scriptlet.Proofs.Text.LineColumn
import Scriptlet.Proofs.Text.NameOrder
import Scriptlet.Proofs.Text.Places
import Scriptlet.Proofs.Text.Visible
import Scriptlet.Proofs.Token.Boundary
import Scriptlet.Proofs.Token.Coverage
import Scriptlet.Proofs.Token.Cutting
import Scriptlet.Proofs.Token.Escapes
import Scriptlet.Proofs.Token.Following
import Scriptlet.Proofs.Token.Lexical
import Scriptlet.Proofs.Token.Longest
import Scriptlet.Proofs.Token.Munch
import Scriptlet.Proofs.Token.Pattern
import Scriptlet.Proofs.Token.Respelling
import Scriptlet.Proofs.Token.Spelling
import Scriptlet.Proofs.Tree.Contained
import Scriptlet.Proofs.Tree.Forms
import Scriptlet.Proofs.Tree.NestedList
import Scriptlet.Proofs.Tree.Spans
import Scriptlet.Proofs.Tree.WellFormed
import Scriptlet.Proofs.Tree.Written
import Scriptlet.Scope.Store
import Scriptlet.Text.Blank
import Scriptlet.Text.Cluster
import Scriptlet.Text.ClusterClass
import Scriptlet.Text.CodeRanges
import Scriptlet.Text.Line
import Scriptlet.Text.NameSet
import Scriptlet.Text.Printable
import Scriptlet.Text.Quoted
import Scriptlet.Text.Span
import Scriptlet.Text.Uppercase
import Scriptlet.Token.Basic
import Scriptlet.Token.Lexeme
import Scriptlet.Token.Listing
import Scriptlet.Token.Stream
import Scriptlet.Tree.Basic
import Scriptlet.Tree.Form
import Scriptlet.Tree.Outline
import Scriptlet.Value.Basic
