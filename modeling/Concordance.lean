import Concordance.Specification.Reader
import Concordance.Source.Convention
import Concordance.Source.Reader
import Concordance.Report.Basic
import Concordance.Alignment.Pairing
import Concordance.Alignment.Battery
import Concordance.Json.Writer
import Concordance.Json.Reader
import Concordance.Assessment.Assessor
import Concordance.Assessment.Service
import Concordance.Files.Listing
import Concordance.Settings.Reader
import Concordance.Report.Console
import Concordance.Report.Format
import Concordance.Settings.Template
import Concordance.Command.Invocation
import Concordance.Main
import Concordance.Proofs.Listing
import Concordance.Proofs.Pairing
import Concordance.Proofs.Subjects
import Concordance.Proofs.Accounting
import Concordance.Proofs.Findings
import Concordance.Proofs.Aligned
import Concordance.Proofs.UndeclaredActions
import Concordance.Proofs.Review
import Concordance.Proofs.Attribution
import Concordance.Proofs.Spans
import Concordance.Proofs.Verdict
import Concordance.Proofs.Dictionaries
import Concordance.Proofs.Layout
import Concordance.Proofs.Printing
import Concordance.Proofs.RoundTrip
import Concordance.Proofs.Greedy
import Concordance.Proofs.Filtering
import Concordance.Proofs.Diagnostics
import Concordance.Proofs.Declarations
import Concordance.Proofs.ClassLayout
import Concordance.Proofs.Nesting
import Concordance.Proofs.Removal
import Concordance.Proofs.Markup
import Concordance.Proofs.Reformatting
import Concordance.Proofs.Outcomes
import Concordance.Proofs.SignatureLines
import Concordance.Proofs.LowerCase
import Concordance.Proofs.StateLines
import Concordance.Proofs.Braces
import Concordance.Proofs.FlatParameters
import Concordance.Proofs.OneLineMethods
import Concordance.Proofs.SpreadSignatures
import Concordance.Proofs.Handover
import Concordance.Proofs.AggregateParameters
import Concordance.Proofs.LineReports
import Concordance.Proofs.LineEndings
import Concordance.Proofs.JsonTokens
import Concordance.Proofs.JsonGrammar
import Concordance.Proofs.EmbeddedObjects
import Concordance.Proofs.JsonWriting
import Concordance.Proofs.ReplyForm
import Concordance.Proofs.Selection
import Concordance.Proofs.ClassNames
import Concordance.Proofs.PathOrder
import Concordance.Proofs.Mentions
import Concordance.Proofs.Scores
import Concordance.Proofs.Grouping
import Concordance.Proofs.Frontmatter
import Concordance.Proofs.ComplexityOfLines
import Concordance.Proofs.JsonFields
import Concordance.Proofs.ExportedReports
import Concordance.Proofs.FileChanges
import Concordance.Proofs.ProjectSetup
import Concordance.Proofs.TopLevelParts
import Concordance.Proofs.BodyExtent
import Concordance.Proofs.Boundaries
import Concordance.Proofs.Truncation
