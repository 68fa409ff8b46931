import ComponentLang.Comment
import ComponentLang.Compile
import ComponentLang.Declaration
import ComponentLang.Depth
import ComponentLang.Endpoint
import ComponentLang.Failure
import ComponentLang.Head
import ComponentLang.Header
import ComponentLang.Label
import ComponentLang.Logic
import ComponentLang.Manifest
import ComponentLang.Markup.Attributes
import ComponentLang.Markup.Basic
import ComponentLang.Markup.Event
import ComponentLang.Markup.Inline
import ComponentLang.Nesting
import ComponentLang.Notice
import ComponentLang.Persona
import ComponentLang.Phrases
import ComponentLang.Proofs.Comment.OnePass
import ComponentLang.Proofs.Comment.Respaced
import ComponentLang.Proofs.Depth.Dedent
import ComponentLang.Proofs.Depth.Ladder
import ComponentLang.Proofs.Head.Block
import ComponentLang.Proofs.Head.Merge
import ComponentLang.Proofs.Head.Outline
import ComponentLang.Proofs.Lines.Renumber
import ComponentLang.Proofs.Lines.Tokens
import ComponentLang.Proofs.Logic.Body
import ComponentLang.Proofs.Logic.Openers
import ComponentLang.Proofs.Markup.Attributes
import ComponentLang.Proofs.Markup.Element
import ComponentLang.Proofs.Markup.Event
import ComponentLang.Proofs.Markup.Header
import ComponentLang.Proofs.Nesting.Balance
import ComponentLang.Proofs.Nesting.Cut
import ComponentLang.Proofs.Nesting.Padding
import ComponentLang.Proofs.Nesting.Rejoin
import ComponentLang.Proofs.Nesting.Split
import ComponentLang.Proofs.Reflow.Code
import ComponentLang.Proofs.Reflow.Idempotent
import ComponentLang.Proofs.Reflow.Lead
import ComponentLang.Proofs.Reflow.Line
import ComponentLang.Proofs.Reflow.Program
import ComponentLang.Proofs.Reflow.Reading
import ComponentLang.Proofs.Reflow.Respacing
import ComponentLang.Proofs.Reflow.Tokens
import ComponentLang.Proofs.Reflow.Visible
import ComponentLang.Proofs.Report.Line
import ComponentLang.Proofs.Scope.After
import ComponentLang.Proofs.Scope.Closing
import ComponentLang.Proofs.Scope.Enclosing
import ComponentLang.Proofs.Scope.Growth
import ComponentLang.Proofs.Scope.Guarded
import ComponentLang.Proofs.Scope.Naming
import ComponentLang.Proofs.Scope.Needs
import ComponentLang.Proofs.Scope.Outline
import ComponentLang.Proofs.Scope.Resume
import ComponentLang.Proofs.Scope.Sketch
import ComponentLang.Proofs.Source.Composition
import ComponentLang.Proofs.Source.IdleLines
import ComponentLang.Proofs.Source.Indentation
import ComponentLang.Proofs.Source.LineEndings
import ComponentLang.Proofs.Source.Strict
import ComponentLang.Proofs.Text.Basic
import ComponentLang.Proofs.Text.Trim
import ComponentLang.Proofs.Text.Word
import ComponentLang.Proofs.View.Account
import ComponentLang.Proofs.View.Aside
import ComponentLang.Proofs.View.Conservation
import ComponentLang.Proofs.View.Descent
import ComponentLang.Proofs.View.Entry
import ComponentLang.Proofs.View.Ledger
import ComponentLang.Proofs.View.Line
import ComponentLang.Proofs.View.Placeholder
import ComponentLang.Query
import ComponentLang.Reflow
import ComponentLang.Repeats
import ComponentLang.Report
import ComponentLang.Scope.Basic
import ComponentLang.Scope.Body
import ComponentLang.Scope.Frame
import ComponentLang.Scope.Step
import ComponentLang.Scope.Tree
import ComponentLang.Scope.Within
import ComponentLang.Settings.Basic
import ComponentLang.Settings.Locate
import ComponentLang.Settings.Read
import ComponentLang.Table
import ComponentLang.Text.Basic
import ComponentLang.Text.Blank
import ComponentLang.Text.CaseFold
import ComponentLang.Text.Decimal
import ComponentLang.Text.Order
import ComponentLang.Text.Printable
import ComponentLang.Text.Quoted
import ComponentLang.Text.Run
import ComponentLang.Text.Upper
import ComponentLang.Text.Word
import ComponentLang.Token.Basic
import ComponentLang.Token.Category
import ComponentLang.Token.Lexicon
import ComponentLang.Token.Rule
import ComponentLang.Toml.Document
import ComponentLang.Toml.Scalar
import ComponentLang.Toml.Value
import ComponentLang.View.Node
import ComponentLang.View.Walk
import ComponentLang.Proofs.Comment.Quotes
import ComponentLang.Proofs.Depth.Canonical
import ComponentLang.Proofs.Label.Marker
import ComponentLang.Proofs.Query.RoundTrip
import ComponentLang.Proofs.Query.Statement
import ComponentLang.Proofs.Logic.Parameters
import ComponentLang.Proofs.View.Conditions
import ComponentLang.Proofs.View.Alternates
import ComponentLang.Proofs.Text.Written
import ComponentLang.Proofs.Table.Merge
import ComponentLang.Proofs.Label.Blocks
import ComponentLang.Proofs.Endpoint.RoundTrip
import ComponentLang.Proofs.Head.Append
import ComponentLang.Proofs.Phrases.RoundTrip
import ComponentLang.Proofs.Report.Repeats
import ComponentLang.Proofs.Declaration.RoundTrip
import ComponentLang.Proofs.Scope.Notes
import ComponentLang.Proofs.Style.Open
import ComponentLang.Proofs.Style.Rules
import ComponentLang.Proofs.View.Every
import ComponentLang.Proofs.View.Names
import ComponentLang.Proofs.View.Address
import ComponentLang.Proofs.View.Linking
