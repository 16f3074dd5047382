import Storyboard.Action
import Storyboard.CommandLine.Disk
import Storyboard.CommandLine.Options
import Storyboard.CommandLine.Run
import Storyboard.CommandLine.Usage
import Storyboard.Decimal.Binary64
import Storyboard.Decimal.Shortest
import Storyboard.Editor.Completion
import Storyboard.Editor.Diagnostics
import Storyboard.Editor.Document
import Storyboard.Editor.Position
import Storyboard.Frame
import Storyboard.Frame.Export
import Storyboard.Frame.Grid
import Storyboard.Highlight
import Storyboard.Json.Reader
import Storyboard.Json.Value
import Storyboard.Json.Writer
import Storyboard.Log
import Storyboard.Main
import Storyboard.OrderedMap
import Storyboard.Script.Command
import Storyboard.Script.Compile
import Storyboard.Script.Grammar
import Storyboard.Script.Parser
import Storyboard.Script.Problem
import Storyboard.Script.Reader
import Storyboard.Script.Resolve
import Storyboard.Script.Split
import Storyboard.Script.Token
import Storyboard.Session
import Storyboard.Table
import Storyboard.Table.Collection
import Storyboard.Text.Blank
import Storyboard.Text.CodePoint
import Storyboard.Text.Digit
import Storyboard.Text.Print
import Storyboard.Text.Printable
import Storyboard.Text.Quoted
import Storyboard.Text.Utf8
import Storyboard.Text.WordChar
import Storyboard.Proofs.Replay
import Storyboard.Proofs.Script.Acceptance
import Storyboard.Proofs.Script.Lexeme
import Storyboard.Proofs.Text.Cut
import Storyboard.Proofs.Script.Splitting
import Storyboard.Proofs.Script.Joining
import Storyboard.Proofs.Session
import Storyboard.Proofs.Script.Span
import Storyboard.Proofs.Script.Viability
import Storyboard.Proofs.Animation
import Storyboard.Proofs.Script.Blame
import Storyboard.Proofs.Script.Locating
import Storyboard.Proofs.Script.Seam
import Storyboard.Proofs.Script.Stray
import Storyboard.Proofs.Script.Overlong
import Storyboard.Proofs.Script.Accounting
import Storyboard.Proofs.Script.Rejoining
import Storyboard.Proofs.Script.Residue
import Storyboard.Proofs.Addressing
import Storyboard.Proofs.Freshness
import Storyboard.Proofs.Relabelling
import Storyboard.Proofs.Json.Strings
import Storyboard.Proofs.Json.RoundTrip
import Storyboard.Proofs.Table.Saving
import Storyboard.Proofs.Marking
import Storyboard.Proofs.Editor.Form
import Storyboard.Proofs.Seeding
import Storyboard.Proofs.Filling
import Storyboard.Proofs.Pinpoint
import Storyboard.Proofs.Script.Coverage
import Storyboard.Proofs.Script.Layout
import Storyboard.Proofs.Table.Shape
import Storyboard.Proofs.Editor.Coordinates
import Storyboard.Proofs.Alignment
import Storyboard.Proofs.Editor.Labels
import Storyboard.Proofs.Editor.Mention
import Storyboard.Proofs.Editor.LineEnds
import Storyboard.Proofs.Script.Trailing
import Storyboard.Proofs.Closing
import Storyboard.Proofs.CommandLine
import Storyboard.Proofs.Text.Print
import Storyboard.Proofs.Printing
