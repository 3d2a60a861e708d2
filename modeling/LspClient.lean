import LspClient.Session
import LspClient.Completion
import LspClient.Channel
import LspClient.Child.Basic
import LspClient.Cli.Check
import LspClient.Main
import LspClient.Proofs.Frame
import LspClient.Proofs.Frame.Cut
import LspClient.Proofs.Completion
import LspClient.Proofs.Message
import LspClient.Proofs.Client.Faithful
import LspClient.Proofs.Client.Correlation
import LspClient.Proofs.Client.Attended
import LspClient.Proofs.Client.Lifecycle
import LspClient.Proofs.Client.Refused
import LspClient.Proofs.Client.Numbered
import LspClient.Proofs.Client.Cleared
import LspClient.Proofs.Client.Distinct
import LspClient.Proofs.Client.Queue
import LspClient.Proofs.Narrowing
import LspClient.Proofs.Switchboard
import LspClient.Proofs.Session.Slot
import LspClient.Proofs.Session.Traced
import LspClient.Proofs.Session.Padded
import LspClient.Proofs.Peer.Agreement
import LspClient.Proofs.Peer.Ending
import LspClient.Proofs.Peer.Acts
import LspClient.Proofs.Peer.Visits
import LspClient.Proofs.Cli.Check
