import ResponsiveStyle.CommandLine.Arguments
import ResponsiveStyle.CommandLine.Report
import ResponsiveStyle.CommandLine.Run
import ResponsiveStyle.Config.Basic
import ResponsiveStyle.Config.Document
import ResponsiveStyle.Css.Lexeme
import ResponsiveStyle.Css.Name
import ResponsiveStyle.Decimal.Layout
import ResponsiveStyle.Decimal.Reading
import ResponsiveStyle.Decimal.Shortest
import ResponsiveStyle.Error
import ResponsiveStyle.Grid.Areas
import ResponsiveStyle.Grid.Axis
import ResponsiveStyle.Grid.Line
import ResponsiveStyle.Grid.Placement
import ResponsiveStyle.Grid.Split
import ResponsiveStyle.Json.Basic
import ResponsiveStyle.Json.Document
import ResponsiveStyle.Json.Fields
import ResponsiveStyle.Json.Number
import ResponsiveStyle.Json.Printer
import ResponsiveStyle.Json.Token
import ResponsiveStyle.Main
import ResponsiveStyle.Output.Compile
import ResponsiveStyle.Output.Digest
import ResponsiveStyle.Output.FileTree
import ResponsiveStyle.Output.Path
import ResponsiveStyle.Output.Plan
import ResponsiveStyle.Output.Scope
import ResponsiveStyle.Output.Sheet
import ResponsiveStyle.Proofs.Json.Members
import ResponsiveStyle.Proofs.Sheet.Cascade
import ResponsiveStyle.Proofs.Sheet.Entry
import ResponsiveStyle.Proofs.Sheet.Reading
import ResponsiveStyle.Proofs.Style.Bucket
import ResponsiveStyle.Proofs.Style.Declaration
import ResponsiveStyle.Proofs.Style.Importance
import ResponsiveStyle.Proofs.Style.Invariant
import ResponsiveStyle.Proofs.Style.LastWrite
import ResponsiveStyle.Proofs.Style.NumberText
import ResponsiveStyle.Proofs.Style.Run
import ResponsiveStyle.Proofs.Style.ScopeId
import ResponsiveStyle.Proofs.Style.Storage
import ResponsiveStyle.Proofs.Text.Cut
import ResponsiveStyle.Proofs.Text.Trim
import ResponsiveStyle.Sheet.Pass
import ResponsiveStyle.Sheet.Render
import ResponsiveStyle.Sheet.Rule
import ResponsiveStyle.Site.Document
import ResponsiveStyle.Site.Node
import ResponsiveStyle.Site.Rebuild
import ResponsiveStyle.Style.Attributes
import ResponsiveStyle.Style.Bucket
import ResponsiveStyle.Style.Declaration
import ResponsiveStyle.Style.Edit
import ResponsiveStyle.Style.Inline
import ResponsiveStyle.Style.Property
import ResponsiveStyle.Style.Record
import ResponsiveStyle.Style.ScopeId
import ResponsiveStyle.Style.Shape
import ResponsiveStyle.Style.Tier
import ResponsiveStyle.Style.Value
import ResponsiveStyle.Table
import ResponsiveStyle.Text.Blank
import ResponsiveStyle.Text.Invisible
import ResponsiveStyle.Text.Numeral
import ResponsiveStyle.Text.Quoted
import ResponsiveStyle.Proofs.Sheet.Reading
import ResponsiveStyle.Proofs.Output.Digest
import ResponsiveStyle.Proofs.Output.Directory
import ResponsiveStyle.Proofs.Output.Plan
import ResponsiveStyle.Proofs.Output.Compile
import ResponsiveStyle.Proofs.Output.History
import ResponsiveStyle.Proofs.Output.Interruption
import ResponsiveStyle.Proofs.Sheet.Pass
import ResponsiveStyle.Proofs.Site.Rebuild
import ResponsiveStyle.Proofs.Site.Blocks
import ResponsiveStyle.Proofs.Site.Reliable
import ResponsiveStyle.Proofs.Grid.Split
import ResponsiveStyle.Proofs.Grid.Axis
import ResponsiveStyle.Proofs.Style.Interleaving
import ResponsiveStyle.Proofs.Style.Spelling
import ResponsiveStyle.Proofs.Sheet.Spelling
import ResponsiveStyle.Proofs.Json.Number
import ResponsiveStyle.Proofs.Style.Shape
import ResponsiveStyle.Proofs.Text.Numeral
import ResponsiveStyle.Proofs.Grid.Line
import ResponsiveStyle.Proofs.Grid.Placement
import ResponsiveStyle.Proofs.Text.Words
import ResponsiveStyle.Proofs.Grid.Areas
import ResponsiveStyle.Proofs.Output.Path
import ResponsiveStyle.Proofs.Output.Sheet
import ResponsiveStyle.Proofs.Style.Rereading
import ResponsiveStyle.Proofs.Sheet.Calls
import ResponsiveStyle.Proofs.Site.Collection
import ResponsiveStyle.Proofs.Sheet.Layout
import ResponsiveStyle.Proofs.Sheet.Telling
import ResponsiveStyle.Proofs.Grid.Balance
import ResponsiveStyle.Proofs.Grid.Joining
import ResponsiveStyle.Proofs.Grid.Repetition
import ResponsiveStyle.Proofs.Grid.Counting
import ResponsiveStyle.Proofs.Grid.Saturation
import ResponsiveStyle.Proofs.Grid.LineNames
import ResponsiveStyle.Proofs.Grid.AreaName
import ResponsiveStyle.Proofs.Grid.Bounds
import ResponsiveStyle.Proofs.Grid.Shown
import ResponsiveStyle.Proofs.Grid.SimplePlacement
import ResponsiveStyle.Proofs.Grid.AreaPlacement
import ResponsiveStyle.Proofs.Grid.Tail
import ResponsiveStyle.Proofs.Grid.Conversion
import ResponsiveStyle.Proofs.Style.Collapse
import ResponsiveStyle.Proofs.Style.Casing
import ResponsiveStyle.Proofs.Style.Identity
import ResponsiveStyle.Proofs.Style.Inline
import ResponsiveStyle.Proofs.Css.Lexeme
import ResponsiveStyle.Proofs.Sheet.Block
import ResponsiveStyle.Proofs.Grid.Resizing
import ResponsiveStyle.Proofs.Text.Bytes
import ResponsiveStyle.Proofs.Style.Marking
import ResponsiveStyle.Proofs.Grid.Depth
import ResponsiveStyle.Proofs.Json.Document
import ResponsiveStyle.Proofs.Config.Document
import ResponsiveStyle.Proofs.Site.Document
