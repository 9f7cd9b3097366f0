import Federation.Node.Basic

/-!
The links of a pair: joining and leaving them, trusting one, writing what waits on them, and
choosing the one that serves a purpose.
-/

namespace Federation.Node

variable {τ : Type}

def link (n : Node τ) (k : SessionKey) : Link :=
  ⟨(n.session k).conn, k⟩

def addIncoming (n : Node τ) (pair : DomainPair) (k : SessionKey) : Node τ :=
  { n with registry := n.registry.alter pair (·.addIncoming (n.link k)) }.alter k (·.join pair)

def addOutgoing (n : Node τ) (pair : DomainPair) (k : SessionKey) : Node τ :=
  { n with registry := n.registry.alter pair (·.addOutgoing (n.link k)) }.alter k (·.join pair)

def addLink (n : Node τ) (pair : DomainPair) (k : SessionKey) : Node τ :=
  match (n.session k).role with
  | .inbound => n.addIncoming pair k
  | .outbound => n.addOutgoing pair k

def detach (n : Node τ) (k : SessionKey) : Node τ :=
  let s := n.session k
  { n with registry := s.joined.foldl (fun r pair => r.unlink pair s.conn) n.registry }

def trust (n : Node τ) (pair : DomainPair) (k : SessionKey) : Node τ :=
  let n := (n.addLink pair k).alter k (·.markTrusted pair)
  { n with registry := n.registry.alter pair TrustEntry.authenticate }

def linkKeys (n : Node τ) (pair : DomainPair) : List SessionKey :=
  match n.registry.get? pair with
  | some e => e.links.map (·.session)
  | none => []

def incomingKeys (n : Node τ) (pair : DomainPair) : List SessionKey :=
  match n.registry.get? pair with
  | some e => e.incoming.map (·.session)
  | none => []

def outgoingKeys (n : Node τ) (pair : DomainPair) : List SessionKey :=
  match n.registry.get? pair with
  | some e => e.outgoing.map (·.session)
  | none => []

/-- The incoming link of a pair on which we announced a stream id. -/
def incomingByStream? (n : Node τ) (pair : DomainPair) (streamId : String) : Option SessionKey :=
  (n.incomingKeys pair).find? fun k => (n.session k).streamId == streamId

variable [Transport τ]

/-- Writes the queue of a session that is not being torn down. A batch that the transport does not
take is lost. -/
def flushIfUp (n : Node τ) (k : SessionKey) : Node τ :=
  if (n.session k).isClosing then n else (n.flush k).2

def flushPair (n : Node τ) (pair : DomainPair) : Node τ :=
  (n.linkKeys pair).foldl flushIfUp n

/-- Makes a pair and a session of it trusted, and writes what waits on the links of the pair. -/
def authenticate (n : Node τ) (pair : DomainPair) (k : SessionKey) : Node τ :=
  (n.trust pair k).flushPair pair

def authenticateByStream (n : Node τ) (pair : DomainPair) (streamId : String) :
    Option SessionKey × Node τ :=
  match n.incomingByStream? pair streamId with
  | some k => (some k, n.authenticate pair k)
  | none => (none, n)

def carriers (n : Node τ) (pair : DomainPair) : List SessionKey :=
  (n.outgoingKeys pair).filter fun k => !(n.session k).isRelay && n.isOpen k

/-- The outgoing link that may carry a request to verify, one trusted for the pair if
there is one. -/
def usableOutgoing? (n : Node τ) (pair : DomainPair) : Option SessionKey :=
  match (n.carriers pair).find? fun k => (n.session k).isTrustedFor pair with
  | some k => some k
  | none => (n.carriers pair).head?

def routableLink? (n : Node τ) (pair : DomainPair) : Option SessionKey :=
  (n.outgoingKeys pair).find? fun k => (n.session k).isTrustedFor pair && n.isOpen k

end Federation.Node
