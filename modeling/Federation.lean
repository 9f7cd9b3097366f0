import Federation.Config.Reading
import Federation.Connection.Reading
import Federation.Node.Lemmas
import Federation.Node.Run
import Federation.Processor.Probe
import Federation.Proofs.Domain.Canonical
import Federation.Proofs.Node.Move
import Federation.Registry.Lemmas
import Federation.Server.Basic
import Federation.Session.Lemmas
import Federation.Transport.Simulated
import Federation.Proofs.Node.Moves
import Federation.Proofs.Node.Decomposition
import Federation.Proofs.Node.Change
import Federation.Proofs.Node.Bound
import Federation.Proofs.Node.History
import Federation.Proofs.Node.Speech
import Federation.Proofs.Node.Trace
import Federation.Proofs.Trust.Authority
import Federation.Proofs.Trust.Provenance
import Federation.Proofs.Trust.ExactPair
import Federation.Proofs.Trust.TwoServers
import Federation.Proofs.Stanza.Dialback
import Federation.Proofs.Node.Tls
import Federation.Proofs.Trust.PresentedKeys
import Federation.Proofs.Trust.OwnKeys
import Federation.Proofs.Trust.Closing
import Federation.Proofs.Node.Coherence
import Federation.Proofs.Trust.Routing
import Federation.Proofs.Trust.Relays
import Federation.Proofs.Trust.Departure
import Federation.Proofs.Node.Confinement
import Federation.Proofs.Node.Locality
import Federation.Proofs.Trust.Isolation
import Federation.Proofs.Node.Persistence
import Federation.Proofs.Trust.Lifetime
import Federation.Proofs.Node.Asking
import Federation.Proofs.Trust.Requests
import Federation.Proofs.Trust.Replay
import Federation.Proofs.Trust.Abandonment
import Federation.Proofs.Trust.Withholding
import Federation.Proofs.Node.Queues
import Federation.Proofs.Node.Upkeep
import Federation.Proofs.Trust.Exchange
import Federation.Proofs.Trust.Progress
import Federation.Proofs.Trust.Completion
import Federation.Proofs.Secrecy.Alike
import Federation.Proofs.Secrecy.Noninterference
import Federation.Proofs.Node.Deeds
import Federation.Proofs.Trust.Output
import Federation.Proofs.Trust.Delivery
import Federation.Proofs.Trust.Sparing
import Federation.Proofs.Trust.TlsWait
import Federation.Proofs.Node.Contact
import Federation.Proofs.Trust.Phases
import Federation.Proofs.Trust.Deadline
import Federation.Proofs.Server.Task
import Federation.Proofs.Server.Wiring
import Federation.Proofs.Trust.SingleUse
import Federation.Proofs.Element.Readability
import Federation.Proofs.Transport.Commands
import Federation.Proofs.Trust.KeyAgreement
import Federation.Proofs.Trust.Verdicts
import Federation.Proofs.Domain.Transparency
import Federation.Proofs.Domain.Addressing
import Federation.Proofs.Registry.Access
import Federation.Proofs.Registry.Reading
import Federation.Proofs.Registry.Order
import Federation.Proofs.Trust.Grant
import Federation.Proofs.Node.Greeting
import Federation.Proofs.Dialback.Key
import Federation.Proofs.Directory.Listing
import Federation.Proofs.Config.Exemption
import Federation.Proofs.Domain.Part
import Federation.Proofs.Node.Settlement
import Federation.Proofs.Processor.Dispatch
