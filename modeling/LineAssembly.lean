import LineAssembly.Main
import LineAssembly.Session
import LineAssembly.Proofs.Numeral
import LineAssembly.Proofs.Text.Pieces
import LineAssembly.Proofs.Listing.Rows
import LineAssembly.Proofs.Listing.Placement
import LineAssembly.Proofs.Source.Reading
import LineAssembly.Proofs.Listing.Normal
import LineAssembly.Proofs.Listing.Rescan
import LineAssembly.Proofs.Source.Tokens
import LineAssembly.Proofs.Listing.RoundTrip
import LineAssembly.Proofs.Machine.Effect
import LineAssembly.Proofs.Machine.Steps
import LineAssembly.Proofs.Statement.Run
import LineAssembly.Proofs.Machine.Choice
import LineAssembly.Proofs.Machine.Turn
import LineAssembly.Proofs.Machine.Forward
import LineAssembly.Proofs.Session
import LineAssembly.Proofs.Machine.FailStop
import LineAssembly.Proofs.Source.Concatenation
import LineAssembly.Proofs.Source.Lines
import LineAssembly.Proofs.Source.Labels
import LineAssembly.Proofs.Machine.Scanned
import LineAssembly.Proofs.Machine.Relocation
import LineAssembly.Proofs.Machine.StrayEnds
import LineAssembly.Proofs.Listing.Rerun
import LineAssembly.Proofs.Machine.Change
import LineAssembly.Proofs.Machine.Exit
import LineAssembly.Proofs.Session.Invariant
import LineAssembly.Proofs.Machine.Past
import LineAssembly.Proofs.Session.Reset
import LineAssembly.Proofs.Machine.History
import LineAssembly.Proofs.Statement.Exact
import LineAssembly.Proofs.Machine.Unmentioned
import LineAssembly.Proofs.Source.Messages
import LineAssembly.Proofs.Source.Refusals
import LineAssembly.Proofs.Machine.Journal
import LineAssembly.Proofs.CommandLine.Interpretation
import LineAssembly.Proofs.CommandLine.Ending
import LineAssembly.Proofs.Source.Layout
import LineAssembly.Proofs.CommandLine.LineEnds
import LineAssembly.Proofs.Machine.Access
import LineAssembly.Proofs.Machine.Insertion
import LineAssembly.Proofs.Session.Configuration
import LineAssembly.Proofs.Datum
import LineAssembly.Proofs.Literal
