import Intake.Digest
import Intake.Text.Case
import Intake.Text.Quoted
import Intake.Time.Formats
import Intake.Json.Reader
import Intake.Json.Printer
import Intake.Fault
import Intake.Json.Times
import Intake.Cleaning.Cleaners
import Intake.Element.Edit
import Intake.Partition
import Intake.Document.Stem
import Intake.Run.Distinct
import Intake.Dump.Reader
import Intake.Dump.Writer
import Intake.Files.Path
import Intake.Files.Tree
import Intake.Files.Pruning
import Intake.Files.Publish
import Intake.Output
import Intake.Processing
import Intake.Settings
import Intake.Text.Described
import Intake.Document.Scripted
import Intake.Run.Runner
import Intake.Http.Form
import Intake.Http.Url
import Intake.Http.Client
import Intake.Http.Scripted
import Intake.Http.Body
import Intake.Listing
import Intake.Slack.Channel
import Intake.Slack.Config
import Intake.Slack.Workspace
import Intake.Drive.Config
import Intake.Drive.Contents
import Intake.Drive.Item
import Intake.Drive.Volume
import Intake.Logging.Config
import Intake.Logging.Directive
import Intake.Logging.Start
import Intake.Environment.Assignment
import Intake.Environment.File
import Intake.CommandLine.Arguments
import Intake.CommandLine.Invocation
import Intake.CommandLine.Program
import Intake.CommandLine.Usage
import Intake.Files.Difference
import Intake.Main
import Intake.Proofs.Document.Histories
import Intake.Proofs.Run.Residue
import Intake.Proofs.Run.Independence
import Intake.Proofs.Dump.RoundTrip
import Intake.Proofs.Document.Sharing
import Intake.Proofs.Run.Results
import Intake.Proofs.Slack.Delivery
import Intake.Proofs.Element.Identifiers
import Intake.Proofs.Document.Questions
import Intake.Proofs.Element.Placement
import Intake.Proofs.Run.Survival
import Intake.Proofs.Http.Listings
import Intake.Proofs.Http.Steady
import Intake.Proofs.Run.Reruns
import Intake.Proofs.Partition.Content
import Intake.Proofs.Partition.Bodies
import Intake.Proofs.Element.Edits
import Intake.Proofs.Drive.Holdings
import Intake.Proofs.Http.Forms
import Intake.Proofs.Drive.Endings
import Intake.Proofs.Drive.Trash
import Intake.Proofs.Text.Numerals
import Intake.Proofs.Time.Hulls
import Intake.Proofs.Time.Epochs
import Intake.Proofs.Time.Numbers
import Intake.Proofs.Slack.Bounds
import Intake.Proofs.Time.Readers
import Intake.Proofs.Cleaning.Spaces
import Intake.Proofs.Cleaning.Marks
import Intake.Proofs.Files.Sweeps
import Intake.Proofs.Element.Decoded
import Intake.Proofs.Element.Messages
import Intake.Proofs.Run.Confinement
import Intake.Proofs.CommandLine.Variables
import Intake.Proofs.Run.Secrecy
