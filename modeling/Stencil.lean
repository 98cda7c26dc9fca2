import Stencil.Block.Attributes
import Stencil.Block.Resolve
import Stencil.Catalogue
import Stencil.Command.Arguments
import Stencil.Command.Help
import Stencil.Command.Run
import Stencil.Config.Assignment
import Stencil.Config.Layer
import Stencil.Config.Load
import Stencil.Config.Problem
import Stencil.Config.Template
import Stencil.Config.Variables
import Stencil.Context
import Stencil.Data.Json
import Stencil.Data.JsonText
import Stencil.Data.Table
import Stencil.Data.Value
import Stencil.Data.Yaml.Block
import Stencil.Data.Yaml.Cursor
import Stencil.Data.Yaml.Node
import Stencil.Data.Yaml.Plain
import Stencil.Data.Yaml.Quote
import Stencil.Data.Yaml.Read
import Stencil.Data.Yaml.Scalar
import Stencil.Data.Yaml.Token
import Stencil.Decimal.Arithmetic
import Stencil.Decimal.Nearest
import Stencil.Decimal.Read
import Stencil.Decimal.Shortest
import Stencil.Decimal.Text
import Stencil.Digest.Md5
import Stencil.Digest.Padding
import Stencil.Digest.Sha256
import Stencil.Directive.Expression
import Stencil.Directive.HostCode
import Stencil.Directive.Meaning
import Stencil.Directive.Stream
import Stencil.Directive.Token
import Stencil.Engine.Cache
import Stencil.Engine.Render
import Stencil.Engine.State
import Stencil.Failure
import Stencil.Fault.Domain
import Stencil.Fault.Report
import Stencil.Fault.Template
import Stencil.Files.Path
import Stencil.Files.Tree
import Stencil.Files.Wildcard
import Stencil.Host.Environment
import Stencil.Host.Evaluate
import Stencil.Host.Evaluator
import Stencil.Host.Expression
import Stencil.Host.Filter
import Stencil.Host.Grammar
import Stencil.Host.Literal
import Stencil.Host.Member
import Stencil.Host.Method
import Stencil.Host.Operation
import Stencil.Host.Problem
import Stencil.Host.Sort
import Stencil.Host.Statement
import Stencil.Host.Test
import Stencil.Host.Token
import Stencil.Host.Value
import Stencil.Layout.Compose
import Stencil.Layout.Directories
import Stencil.Main
import Stencil.Markup.Element
import Stencil.Markup.Escape
import Stencil.Markup.Minify
import Stencil.Markup.Plain
import Stencil.Registry
import Stencil.Sandbox
import Stencil.Script.Minify
import Stencil.Script.Scan
import Stencil.Script.Token
import Stencil.ServerCode
import Stencil.Sheet.Bundle
import Stencil.Sheet.Flatten
import Stencil.Sheet.Minify
import Stencil.Sheet.Prune
import Stencil.Sheet.Reference
import Stencil.Sheet.Segment
import Stencil.Text.Blank
import Stencil.Text.Capital
import Stencil.Text.Case
import Stencil.Text.Casing
import Stencil.Text.Cut
import Stencil.Text.Fold
import Stencil.Text.Letter
import Stencil.Text.Newline
import Stencil.Text.Numeric
import Stencil.Text.Printable
import Stencil.Text.Quoted
import Stencil.Text.Range
import Stencil.Text.Search
import Stencil.Text.Spacing
import Stencil.TextFunction
import Stencil.Warning
import Stencil.Proofs.Directive.Scan
import Stencil.Proofs.Directive.Partition
import Stencil.Proofs.Directive.Image
import Stencil.Proofs.Directive.Descent
import Stencil.Proofs.Directive.LoopForm
import Stencil.Proofs.Directive.Lexing
import Stencil.Proofs.Directive.Acceptance
import Stencil.Proofs.Directive.Opener
import Stencil.Proofs.ServerCode
import Stencil.Proofs.Directive.Meaning
import Stencil.Proofs.Directive.Written
import Stencil.Proofs.Directive.Injection
import Stencil.Proofs.Directive.Surroundings
import Stencil.Proofs.Directive.Unclosed
import Stencil.Proofs.Block.Nesting
import Stencil.Proofs.Block.Resolution
import Stencil.Proofs.ServerCode.Marker
import Stencil.Proofs.ServerCode.Removal
import Stencil.Proofs.Text.Pieces
import Stencil.Proofs.Sheet.Important
import Stencil.Proofs.Sheet.Reader
import Stencil.Proofs.Sheet.Thinning
import Stencil.Proofs.Sheet.Tight
import Stencil.Proofs.Sheet.Minify
import Stencil.Proofs.Text.Spacing
import Stencil.Proofs.Sheet.Prune
import Stencil.Proofs.Sheet.Selector
import Stencil.Proofs.Sheet.Rule
import Stencil.Proofs.Markup.Reader
import Stencil.Proofs.Markup.Blanks
import Stencil.Proofs.Markup.Element
import Stencil.Proofs.Markup.Comment
import Stencil.Proofs.Markup.Written
import Stencil.Proofs.Markup.Minify
import Stencil.Proofs.Script.Scan
import Stencil.Proofs.Script.Reading
import Stencil.Proofs.Script.Rereading
import Stencil.Proofs.Script.Written
import Stencil.Proofs.Script.Tokens
import Stencil.Proofs.Script.Minify
import Stencil.Proofs.Data.Distinct
import Stencil.Proofs.Text.Split
import Stencil.Proofs.Config.Layer
import Stencil.Proofs.Config.Load
import Stencil.Proofs.Work
import Stencil.Proofs.Engine.Cache
import Stencil.Proofs.Engine.Run
import Stencil.Proofs.Host.Untagged
import Stencil.Proofs.Engine.Verbatim
import Stencil.Proofs.Files.Path
import Stencil.Proofs.Files.Tree
import Stencil.Proofs.Sheet.Reference
import Stencil.Proofs.Sheet.Through
import Stencil.Proofs.Sheet.Flatten
import Stencil.Proofs.Sheet.Call
import Stencil.Proofs.Files.Change
import Stencil.Proofs.Sheet.Bundle
import Stencil.Proofs.Directive.Innermost
import Stencil.Proofs.Directive.Private
import Stencil.Proofs.Directive.Translation
import Stencil.Proofs.Data.Table
import Stencil.Proofs.Block.Parts
import Stencil.Proofs.Block.Written
import Stencil.Proofs.Block.RoundTrip
import Stencil.Proofs.Text.Apart
import Stencil.Proofs.Sheet.Stretch
import Stencil.Proofs.Sheet.Symbol
import Stencil.Proofs.Sheet.Written
import Stencil.Proofs.Markup.Spaced
import Stencil.Proofs.Markup.Insertion
import Stencil.Proofs.Script.LineBreak
import Stencil.Proofs.Directive.FaultPosition
import Stencil.Proofs.Block.FaultPosition
import Stencil.Proofs.Layout.Depth
import Stencil.Proofs.Script.Semicolon
import Stencil.Proofs.Sheet.Sharing
import Stencil.Proofs.Context
import Stencil.Proofs.Catalogue
import Stencil.Proofs.Registry
import Stencil.Proofs.Command.Configuration
import Stencil.Proofs.Script.Template
import Stencil.Proofs.Script.Lexeme
