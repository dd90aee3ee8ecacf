import MethodSurvey.Main
import MethodSurvey.Proofs.Scan.CodeLines
import MethodSurvey.Proofs.Scan.Extent
import MethodSurvey.Proofs.Scan.Schedule
import MethodSurvey.Proofs.Scan.Nesting
import MethodSurvey.Proofs.Scan.LineEnds
import MethodSurvey.Proofs.Scan.Layout
import MethodSurvey.Proofs.Registry.Coherence
import MethodSurvey.Proofs.Registry.LastWrite
import MethodSurvey.Proofs.Scan.Counts
import MethodSurvey.Proofs.Scan.Boundary
import MethodSurvey.Proofs.Registry.Commutation
import MethodSurvey.Proofs.Survey.Files
import MethodSurvey.Proofs.Survey.Tally
import MethodSurvey.Proofs.Registry.Blocks
import MethodSurvey.Proofs.Registry.FileKeys
import MethodSurvey.Proofs.Registry.Collisions
import MethodSurvey.Proofs.Text.Pieces
import MethodSurvey.Proofs.Text.LeadBytes
import MethodSurvey.Proofs.Text.LineFeeds
import MethodSurvey.Proofs.Text.WellFormed
import MethodSurvey.Proofs.Text.Encoded
import MethodSurvey.Proofs.Survey.Origin
import MethodSurvey.Proofs.Registry.Ranking
import MethodSurvey.Proofs.Survey.FileOrder
import MethodSurvey.Proofs.Files.Names
import MethodSurvey.Proofs.Files.WellFormed
import MethodSurvey.Proofs.Files.Listing
import MethodSurvey.Proofs.Survey.FilesApart
import MethodSurvey.Proofs.Registry.Survivors
import MethodSurvey.Proofs.Survey.Keyings
import MethodSurvey.Proofs.Scan.Balance
import MethodSurvey.Proofs.Survey.Reports
import MethodSurvey.Proofs.Files.Sources
import MethodSurvey.Proofs.Survey.Sources
import MethodSurvey.Proofs.Run.Configuration
import MethodSurvey.Proofs.Run.Outcome
import MethodSurvey.Proofs.Declaration.Strict
import MethodSurvey.Proofs.Text.Occurrence
import MethodSurvey.Proofs.Declaration.Leading
import MethodSurvey.Proofs.Declaration.JavaStyles
import MethodSurvey.Proofs.Run.Arguments
import MethodSurvey.Proofs.Run.RankingLength
import MethodSurvey.Proofs.Run.Hints
import MethodSurvey.Proofs.Toml.Reader
import MethodSurvey.Proofs.Numeric.Decimals
import MethodSurvey.Proofs.Json.Grammar
import MethodSurvey.Proofs.Json.Strings
import MethodSurvey.Proofs.Json.Numbers
import MethodSurvey.Proofs.Json.RoundTrip
import MethodSurvey.Proofs.Report.Receipt
import MethodSurvey.Proofs.Scan.BlockComments
import MethodSurvey.Proofs.Scan.Registers
import MethodSurvey.Proofs.Scan.Invariant
import MethodSurvey.Proofs.Declaration.FirstSpace
import MethodSurvey.Proofs.Declaration.Readings
import MethodSurvey.Proofs.Declaration.Signature
import MethodSurvey.Proofs.Declaration.KotlinStyles
import MethodSurvey.Proofs.Declaration.Places
import MethodSurvey.Proofs.Scan.DeclaredNames
import MethodSurvey.Proofs.Registry.Ranks
import MethodSurvey.Proofs.Scan.WithoutComments
import MethodSurvey.Proofs.Scan.Faults
import MethodSurvey.Proofs.Survey.Failures
import MethodSurvey.Proofs.Files.Order
import MethodSurvey.Proofs.Numeric.Magnitude
import MethodSurvey.Proofs.Numeric.NearestNat
import MethodSurvey.Proofs.Numeric.NearestRank
import MethodSurvey.Proofs.Numeric.Hundredths
import MethodSurvey.Proofs.Numeric.Notation
import MethodSurvey.Proofs.Numeric.Arithmetic
import MethodSurvey.Proofs.Percentage.Rounded
import MethodSurvey.Proofs.Percentage.Steps
import MethodSurvey.Proofs.Percentage.Accuracy
import MethodSurvey.Proofs.Percentage.Order
