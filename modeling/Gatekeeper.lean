import Gatekeeper.Text.Lines
import Gatekeeper.Redaction.Lexeme
import Gatekeeper.Redaction.Redactor
import Gatekeeper.Screening.Screen
import Gatekeeper.Screening.AcceptPattern
import Gatekeeper.Logging.Delivery
import Gatekeeper.Contributor.Discovery
import Gatekeeper.Configuration.Choice
import Gatekeeper.Configuration.StreamScreen
import Gatekeeper.Guard.Reader
import Gatekeeper.Session.Request
import Gatekeeper.Main
import Gatekeeper.Proofs.Redaction.Reading
import Gatekeeper.Proofs.Redaction.WellFormed
import Gatekeeper.Proofs.Redaction.Cutting
import Gatekeeper.Proofs.Redaction.Secrecy
import Gatekeeper.Proofs.Redaction.CommandLine
import Gatekeeper.Proofs.Redaction.Composition
import Gatekeeper.Proofs.Redaction.Position
import Gatekeeper.Proofs.Redaction.Coverage
import Gatekeeper.Proofs.Redaction.Grammar
import Gatekeeper.Proofs.Redaction.Span
import Gatekeeper.Proofs.Redaction.Stability
import Gatekeeper.Proofs.Screening.Segments
import Gatekeeper.Proofs.Screening.AcceptPattern
import Gatekeeper.Proofs.Screening.Grammar
import Gatekeeper.Proofs.Screening.Element
import Gatekeeper.Proofs.Screening.Joining
import Gatekeeper.Proofs.Logging.History
import Gatekeeper.Proofs.Logging.Delivery
import Gatekeeper.Proofs.Logging.Refiltering
import Gatekeeper.Proofs.Logging.Reporting
import Gatekeeper.Proofs.Guard.Operation
import Gatekeeper.Proofs.Guard.Mediation
import Gatekeeper.Proofs.Guard.WriteOnce
import Gatekeeper.Proofs.Guard.Ending
import Gatekeeper.Proofs.Guard.Race
import Gatekeeper.Proofs.Configuration.Fault
import Gatekeeper.Proofs.Configuration.Retry
import Gatekeeper.Proofs.Session.Progress
import Gatekeeper.Proofs.Session.Mediation
import Gatekeeper.Proofs.Session.Backing
import Gatekeeper.Proofs.Configuration.Agreement
import Gatekeeper.Proofs.Configuration.Startup
import Gatekeeper.Proofs.Redaction.Rewriting
import Gatekeeper.Proofs.Redaction.Walk
import Gatekeeper.Proofs.Redaction.Joining
import Gatekeeper.Proofs.Redaction.Marking
import Gatekeeper.Proofs.Redaction.Notice
import Gatekeeper.Proofs.Contributor.Listing
import Gatekeeper.Proofs.Contributor.Merging
import Gatekeeper.Proofs.Contributor.Discovery
import Gatekeeper.Proofs.Configuration.Publication
import Gatekeeper.Proofs.Configuration.Recording
