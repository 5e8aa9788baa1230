import Worksheet.Main
import Worksheet.Sample
import Worksheet.Session.Basic
import Worksheet.Uri.Basic
import Worksheet.Proofs.Text.Seam
import Worksheet.Proofs.Text.Position
import Worksheet.Proofs.Text.Location
import Worksheet.Proofs.Bounds.Layout
import Worksheet.Proofs.Bounds.Edit
import Worksheet.Proofs.Document.Ranges
import Worksheet.Proofs.Document.Operations
import Worksheet.Proofs.Document.Staleness
import Worksheet.Proofs.Document.Lookup
import Worksheet.Proofs.Document.Reports
import Worksheet.Proofs.Document.Offsets
import Worksheet.Proofs.Document.Innermost
import Worksheet.Proofs.Document.Parents
import Worksheet.Proofs.Document.Outline
import Worksheet.Proofs.Area.Numbering
import Worksheet.Proofs.Area.Counter
import Worksheet.Proofs.Area.Order
import Worksheet.Proofs.Region.Pattern
import Worksheet.Proofs.Region.Cut
import Worksheet.Proofs.Area.Plain
import Worksheet.Proofs.Area.Merging
import Worksheet.Proofs.Region.Seam
import Worksheet.Proofs.Region.RoundTrip
import Worksheet.Proofs.Region.Canonical
import Worksheet.Proofs.Region.Rewriting
import Worksheet.Proofs.Region.OnePass
import Worksheet.Proofs.Area.Forest
import Worksheet.Proofs.Region.Nesting
import Worksheet.Proofs.Text.LineEnds
import Worksheet.Proofs.Region.LineEnds
import Worksheet.Proofs.Text.Lines
import Worksheet.Proofs.Block.RoundTrip
import Worksheet.Proofs.Block.Nesting
import Worksheet.Proofs.Block.Accounting
import Worksheet.Proofs.Block.Rewriting
import Worksheet.Proofs.Block.OnePass
import Worksheet.Proofs.Reading.RoundTrip
import Worksheet.Proofs.Reading.LineEnds
import Worksheet.Proofs.Reading.Nesting
import Worksheet.Proofs.Reading.Fences
import Worksheet.Proofs.Reading.Rewriting
import Worksheet.Proofs.Reading.OnePass
import Worksheet.Proofs.Json.Lexeme
import Worksheet.Proofs.Json.RoundTrip
import Worksheet.Proofs.Json.Rearranged
import Worksheet.Proofs.Editor.Extraction
import Worksheet.Proofs.Editor.Identifiers
import Worksheet.Proofs.Editor.Counting
import Worksheet.Proofs.Editor.Fields
import Worksheet.Proofs.Editor.Snapshot
import Worksheet.Proofs.Session.Opening
import Worksheet.Proofs.Sync.Desk
import Worksheet.Proofs.Sync.Announced
import Worksheet.Proofs.Sync.Untouched
import Worksheet.Proofs.Sync.Bench
import Worksheet.Proofs.Sync.Timers
import Worksheet.Proofs.Sync.Edits
import Worksheet.Proofs.Sync.Pace
import Worksheet.Proofs.Sync.Adoption
