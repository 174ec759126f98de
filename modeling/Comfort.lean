import Comfort.Main
import Comfort.Report.Check
import Comfort.Text.Scanner
import Comfort.Proofs.Document.Sync
import Comfort.Proofs.Line.Meaning
import Comfort.Proofs.Text.Piece
import Comfort.Proofs.Line.Captures
import Comfort.Proofs.Simulation
import Comfort.Proofs.Pass.Basic
import Comfort.Proofs.Pass.Anchored
import Comfort.Proofs.Pass.Reading
import Comfort.Proofs.Json.Paths
import Comfort.Proofs.Json.Canonical
import Comfort.Proofs.Pointer
import Comfort.Proofs.Store.Reachable
import Comfort.Proofs.Commit.Effect
import Comfort.Proofs.Commit.Replace
import Comfort.Proofs.Commit.Run
import Comfort.Proofs.Commit.Tree
import Comfort.Proofs.Commit.Stored
import Comfort.Proofs.Store.Operations
import Comfort.Proofs.Line.Shift
import Comfort.Proofs.Line.Annotate
import Comfort.Proofs.Line.Productions
import Comfort.Proofs.Line.Regex
import Comfort.Proofs.Line.Parts
import Comfort.Proofs.Line.Headings
import Comfort.Proofs.Line.Patterns
import Comfort.Proofs.Ident
import Comfort.Proofs.Pass.Stops
import Comfort.Proofs.Document.Cut
import Comfort.Proofs.Document.Ranges
import Comfort.Proofs.Document.Failure
import Comfort.Proofs.Edits.Insert
import Comfort.Proofs.Edits.Agree
import Comfort.Proofs.Edits.Accept
import Comfort.Proofs.Pass.Inversion
import Comfort.Proofs.Line.Marks
import Comfort.Proofs.Document.Ids
import Comfort.Proofs.Store.Speakers
import Comfort.Proofs.Mote.Allowed
import Comfort.Proofs.Session.Naming
import Comfort.Proofs.Config.Expand
import Comfort.Proofs.CommandLine.Opening
import Comfort.Proofs.Report.Written
import Comfort.Proofs.CommandLine.Printed
import Comfort.Proofs.Commit.Moments
import Comfort.Proofs.Document.Speakers
import Comfort.Proofs.Commit.Speakers
import Comfort.Proofs.Line.Speakable
import Comfort.Proofs.Pass.Growth
import Comfort.Proofs.Document.Splice
import Comfort.Proofs.Edits.Complete
import Comfort.Proofs.Document.StageLabel
import Comfort.Proofs.Pass.Extension
import Comfort.Proofs.Document.Append
import Comfort.Proofs.Pass.Relocation
import Comfort.Proofs.Document.LineEndings
import Comfort.Proofs.Json.Scalars
import Comfort.Proofs.Json.Written
import Comfort.Proofs.Json.Decoded
import Comfort.Proofs.Schema.Written
import Comfort.Proofs.Files.Places
import Comfort.Proofs.Files.Created
import Comfort.Proofs.Files.Beside
import Comfort.Proofs.Store.Written
import Comfort.Proofs.Store.RoundTrip
import Comfort.Proofs.Store.Saving
import Comfort.Proofs.Document.Noninterference
import Comfort.Proofs.Commit.Refusal
import Comfort.Proofs.Commit.Commute
import Comfort.Proofs.Commit.Retry
import Comfort.Proofs.Json.Pruning
import Comfort.Proofs.Mote.Field
import Comfort.Proofs.Schema.Governs
import Comfort.Proofs.Text.Groups
import Comfort.Proofs.Line.Order
import Comfort.Proofs.Document.Words
import Comfort.Proofs.Document.Layout
import Comfort.Proofs.Document.Excerpts
import Comfort.Proofs.Session.Walk
