import Landform.Catalog
import Landform.Coerce
import Landform.Command.Arguments
import Landform.Command.Line
import Landform.Command.Run
import Landform.Comparison
import Landform.Counting
import Landform.Curve
import Landform.Decimal.Binary64
import Landform.Decimal.Read
import Landform.Decimal.Shortest
import Landform.Decimal.Written
import Landform.Document.Block
import Landform.Document.Flow
import Landform.Document.Json
import Landform.Document.Plain
import Landform.Error
import Landform.Evaluation.Evaluate
import Landform.Evaluation.Rule
import Landform.Files
import Landform.Graph.Basic
import Landform.Graph.Config
import Landform.Graph.Edit
import Landform.Graph.Reach
import Landform.Graph.Sorting
import Landform.Graph.Template
import Landform.Graph.Wiring
import Landform.Kind
import Landform.Lua.Balance
import Landform.Lua.Expr
import Landform.Lua.Helper
import Landform.Lua.Literal
import Landform.Main
import Landform.Node
import Landform.Noise.Escape
import Landform.Noise.Flags
import Landform.Noise.Fractal
import Landform.Noise.Gradient
import Landform.Noise.Lattice
import Landform.Noise.Scalar
import Landform.Params.Basic
import Landform.Params.Update
import Landform.Port
import Landform.Proofs.Command.GraphFiles
import Landform.Proofs.Decimal.Exact
import Landform.Proofs.Decimal.Nearest
import Landform.Proofs.Decimal.Numeral
import Landform.Proofs.Decimal.Reading
import Landform.Proofs.Decimal.Shortest
import Landform.Proofs.Decimal.Special
import Landform.Proofs.Document.Brackets
import Landform.Proofs.Document.Distinct
import Landform.Proofs.Document.Layout
import Landform.Proofs.Document.Quoted
import Landform.Proofs.Document.Scalars
import Landform.Proofs.Document.Words
import Landform.Proofs.Evaluation.Deep
import Landform.Proofs.Evaluation.Inquiry
import Landform.Proofs.Evaluation.Kinds
import Landform.Proofs.Evaluation.Local
import Landform.Proofs.Evaluation.Nesting
import Landform.Proofs.Evaluation.Plain
import Landform.Proofs.Evaluation.Rule
import Landform.Proofs.Evaluation.Strict
import Landform.Proofs.Evaluation.Untaken
import Landform.Proofs.Evaluation.Walk
import Landform.Proofs.Failures
import Landform.Proofs.Files
import Landform.Proofs.Graph.Bare
import Landform.Proofs.Graph.Building
import Landform.Proofs.Graph.Changes
import Landform.Proofs.Graph.Closure
import Landform.Proofs.Graph.Cycle
import Landform.Proofs.Graph.Failures
import Landform.Proofs.Graph.Histories
import Landform.Proofs.Graph.Legal
import Landform.Proofs.Graph.Loading
import Landform.Proofs.Graph.Order
import Landform.Proofs.Graph.Parameters
import Landform.Proofs.Graph.PortTable
import Landform.Proofs.Graph.Ports
import Landform.Proofs.Graph.Reordering
import Landform.Proofs.Graph.Reread
import Landform.Proofs.Graph.Saved
import Landform.Proofs.Graph.Sorting
import Landform.Proofs.Graph.Sound
import Landform.Proofs.Graph.States
import Landform.Proofs.Graph.Steps
import Landform.Proofs.Graph.Templates
import Landform.Proofs.Graph.Updates
import Landform.Proofs.Graph.Upstream
import Landform.Proofs.Graph.Versions
import Landform.Proofs.Lua.Balance
import Landform.Proofs.Lua.Grammar
import Landform.Proofs.Lua.Literals
import Landform.Proofs.Lua.Meaning
import Landform.Proofs.Lua.Neutral
import Landform.Proofs.Lua.Parsed
import Landform.Proofs.Lua.Quoted
import Landform.Proofs.Lua.Renaming
import Landform.Proofs.Lua.Rendered
import Landform.Proofs.Lua.Statements
import Landform.Proofs.Lua.Tokens
import Landform.Proofs.Noise.Flags
import Landform.Proofs.Noise.Interpolation
import Landform.Proofs.Noise.Octaves
import Landform.Proofs.Noise.Orbits
import Landform.Proofs.Noise.Range
import Landform.Proofs.Noise.Words
import Landform.Proofs.Params
import Landform.Proofs.Params.Fields
import Landform.Proofs.Params.Merging
import Landform.Proofs.Params.Spellings
import Landform.Proofs.Registry
import Landform.Proofs.Script.Agreement
import Landform.Proofs.Script.Balanced
import Landform.Proofs.Script.Bodies
import Landform.Proofs.Script.Claims
import Landform.Proofs.Script.Closed
import Landform.Proofs.Script.Complete
import Landform.Proofs.Script.Contents
import Landform.Proofs.Script.Declared
import Landform.Proofs.Script.Emission
import Landform.Proofs.Script.Expressions
import Landform.Proofs.Script.Grouping
import Landform.Proofs.Script.Identifiers
import Landform.Proofs.Script.Idle
import Landform.Proofs.Script.Lines
import Landform.Proofs.Script.Makes
import Landform.Proofs.Script.Nesting
import Landform.Proofs.Script.Registrations
import Landform.Proofs.Script.Renamed
import Landform.Proofs.Script.Sharing
import Landform.Proofs.Script.Values
import Landform.Proofs.Script.Words
import Landform.Proofs.Settings.Chains
import Landform.Proofs.Settings.Merge
import Landform.Proofs.Settings.Overrides
import Landform.Proofs.Settings.Precedence
import Landform.Proofs.Table
import Landform.Proofs.Validation
import Landform.Proofs.Voxel
import Landform.Registry
import Landform.Script.Compile
import Landform.Script.Emit
import Landform.Script.Locals
import Landform.Settings.Load
import Landform.Settings.Merge
import Landform.Settings.Override
import Landform.Table
import Landform.Terrain
import Landform.Text.Blank
import Landform.Text.Case
import Landform.Text.Closest
import Landform.Text.Digit
import Landform.Text.Printable
import Landform.Text.Quoted
import Landform.Text.Runs
import Landform.Text.Word
import Landform.Twister
import Landform.Validation
import Landform.Value
import Landform.Voxel
