import DialogueEngine.Word
import DialogueEngine.Dict
import DialogueEngine.Text.Blank
import DialogueEngine.Text.Quoted
import DialogueEngine.Duration
import DialogueEngine.Json.Parser
import DialogueEngine.Json.Printer
import DialogueEngine.Json.Decode
import DialogueEngine.Json.Canonical
import DialogueEngine.Program.Codec
import DialogueEngine.StringTable
import DialogueEngine.Diagnostic.Check
import DialogueEngine.Machine.Step
import DialogueEngine.Presenter.Queue
import DialogueEngine.Commands.Wait
import DialogueEngine.Commands.Scan
import DialogueEngine.Coordinator.Operations
import DialogueEngine.Player.Loading
import DialogueEngine.Player.Config
import DialogueEngine.Player.Play
import DialogueEngine.CommandLine.Play
import DialogueEngine.CommandLine.Check
import DialogueEngine.Main
import DialogueEngine.Proofs.Session.Operation
import DialogueEngine.Proofs.Session.Recorded
import DialogueEngine.Proofs.Session.Moves
import DialogueEngine.Proofs.Session.Courses
import DialogueEngine.Proofs.Machine.Yields
import DialogueEngine.Proofs.Session.Coherence
import DialogueEngine.Proofs.Session.Handles
import DialogueEngine.Proofs.Session.Replay
import DialogueEngine.Proofs.Session.Fairness
import DialogueEngine.Proofs.Session.Refusal
import DialogueEngine.Proofs.Session.Waits
import DialogueEngine.Proofs.Machine.Visits
import DialogueEngine.Proofs.Session.Lifecycle
import DialogueEngine.Proofs.Session.Journal
import DialogueEngine.Proofs.Session.Accounts
import DialogueEngine.Proofs.Session.Episode
import DialogueEngine.Proofs.Coordinator.Deadlines
import DialogueEngine.Proofs.Session.Pairing
import DialogueEngine.Proofs.Session.Paired
import DialogueEngine.Proofs.Session.Renewal
import DialogueEngine.Proofs.Player.Interpreter
import DialogueEngine.Proofs.Player.Rounds
import DialogueEngine.Proofs.Player.Playing
import DialogueEngine.Proofs.Program.Merging
import DialogueEngine.Proofs.Machine.Steps
import DialogueEngine.Proofs.Machine.Representation
import DialogueEngine.Proofs.Program.Targets
import DialogueEngine.Proofs.Machine.Linking
import DialogueEngine.Proofs.Session.Lifting
import DialogueEngine.Proofs.Session.Linking
import DialogueEngine.Proofs.Presenter.Keeping
import DialogueEngine.Proofs.Presenter.Passage
import DialogueEngine.Proofs.Presenter.Onward
import DialogueEngine.Proofs.Presenter.Calls
import DialogueEngine.Proofs.Presenter.Prompts
import DialogueEngine.Proofs.Presenter.Reports
import DialogueEngine.Proofs.Decimal.Finite
import DialogueEngine.Proofs.Json.Number
import DialogueEngine.Proofs.Json.Text
import DialogueEngine.Proofs.Json.Written
import DialogueEngine.Proofs.Json.Reading
import DialogueEngine.Proofs.Json.Codec
import DialogueEngine.Proofs.Program.Decoding
import DialogueEngine.Proofs.Documents
import DialogueEngine.Proofs.Bare.Deeds
import DialogueEngine.Proofs.Bare.Extension
import DialogueEngine.Proofs.Bare.Adapted
import DialogueEngine.Proofs.Bare.Instructions
import DialogueEngine.Proofs.Bare.Options
import DialogueEngine.Proofs.Program.Paths
import DialogueEngine.Proofs.Program.Warnings
import DialogueEngine.Proofs.Machine.Texts
import DialogueEngine.Proofs.Machine.Paths
import DialogueEngine.Proofs.StringTable
import DialogueEngine.Proofs.Session.Completions
import DialogueEngine.Proofs.Session.Delays
import DialogueEngine.Proofs.Bare.Skips
import DialogueEngine.Proofs.Program.Combining
import DialogueEngine.Proofs.Session.Joining
import DialogueEngine.Proofs.Commands.Offers
import DialogueEngine.Proofs.Commands.History
import DialogueEngine.Proofs.Commands.Inquiries
import DialogueEngine.Proofs.Commands.Sources
import DialogueEngine.Proofs.Commands.Preorder
import DialogueEngine.Proofs.Text.Words
import DialogueEngine.Proofs.Commands.Addressing
import DialogueEngine.Proofs.Session.Logged
import DialogueEngine.Proofs.Session.Consumers
import DialogueEngine.Proofs.Machine.InPlace
import DialogueEngine.Proofs.Bare.Rejections
import DialogueEngine.Proofs.Coordinator.Queue
import DialogueEngine.Proofs.CommandLine.Checkers
import DialogueEngine.Proofs.Machine.Allowance
import DialogueEngine.Proofs.Machine.Fetches
import DialogueEngine.Proofs.Session.Ending
import DialogueEngine.Proofs.Session.Clock
