import Federation.Node.Stream
import Federation.Node.Watchdog

/-!
Everything that can happen to a node, as one type, and runs of such events.
-/

namespace Federation

inductive Event where
  | accept (conn : ConnId) (address : String)
  | openConnection (pair : DomainPair) (relayFor : Option String)
  | serviceStarted (conn : ConnId)
  | streamOpened (conn : ConnId) (header : StreamHeader)
  | receive (conn : ConnId) (stanza : Element)
  | tlsCompleted (conn : ConnId) (trust : CertTrust)
  | connectionClosed (conn : ConnId)
  | send (pair : DomainPair) (stanza : Element)
  | requestVerification (pair : DomainPair) (streamId key : String)
  | advance (milliseconds : Nat)

namespace Node

variable {τ : Type} [Transport τ]

def step (chain : Chain τ) (n : Node τ) : Event → Node τ
  | .accept conn address => (n.accept conn address).2
  | .openConnection pair relayFor => (n.openConnection pair relayFor).2
  | .serviceStarted conn => (n.serviceStarted chain conn).2
  | .streamOpened conn header => (n.streamOpened chain conn header).2
  | .receive conn stanza => (n.receive chain conn stanza).2
  | .tlsCompleted conn trust => n.tlsCompleted conn trust
  | .connectionClosed conn => n.connectionClosed conn
  | .send pair stanza => (n.send pair stanza).2
  | .requestVerification pair streamId key => (n.requestVerification pair streamId key).2
  | .advance milliseconds => n.advance milliseconds

def run (chain : Chain τ) (n : Node τ) (events : List Event) : Node τ :=
  events.foldl (step chain) n

end Node

end Federation
