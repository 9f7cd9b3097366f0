import Federation.Directory.Table
import Federation.Processor.Standard
import Federation.Transport.Channel

/-!
A server: a node whose transport hands commands to a task. No dialer is attached to the task, so it
fails every connection that is asked for; a connection that is closed is reported to the node.
-/

namespace Federation

def Node.ofConfig (c : Config) (issued : Nat) (identify : Nat → String := identifierText) :
    Except ConfigError (Node Channel) :=
  match DomainTable.ofConfig issued c.domains identify with
  | .error e => .error e
  | .ok (table, issued) => .ok (.create c.trust.settings table.directory {} issued identify)

namespace Node

def handle (n : Node Channel) : TransportCommand → Node Channel
  | .write _ _ => n
  | .connect conn _ => { n with transport := n.transport.close conn true }
  | .close conn _ => n.connectionClosed conn

def sweep (n : Node Channel) : Node Channel :=
  n.transport.pending.foldl handle { n with transport := n.transport.takeAll }

/-- Runs the task until it is idle. Only failing a connection gives a new command, which is to close
it and gives no other, so two sweeps are enough. -/
def settle (n : Node Channel) : Node Channel :=
  n.sweep.sweep

def acceptNew (n : Node Channel) (address : String) : SessionKey × Node Channel :=
  let (conn, transport) := n.transport.register
  { n with transport := transport }.accept conn address

end Node

structure Health where
  status : String
  version : String
  authenticatedPairs : Nat
  connections : Nat

def Node.health {τ : Type} (n : Node τ) : Health where
  status := "ok"
  version := "0.0.1"
  authenticatedPairs := n.registry.authenticatedPairs.length
  connections := n.sessionCount

end Federation
