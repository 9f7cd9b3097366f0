import Federation.Node.Trust
import Federation.Stanza.Dialback

/-!
The life of connections: accepting and opening them, noting TLS and their end, asking over one of
them whether a key is right, and sending traffic.
-/

namespace Federation.Node

variable {τ : Type}

def accept (n : Node τ) (conn : ConnId) (address : String) : SessionKey × Node τ :=
  let k := n.sessions.length
  (k, (n.addSession (.accepted conn address n.nextIdentifier)).register conn k)

def tlsCompleted (n : Node τ) (conn : ConnId) (trust : CertTrust) : Node τ :=
  match n.find? conn with
  | some k => n.alter k (·.recordTls trust)
  | none => n

/-- Notes that a connection is gone: what waits on it is dropped and it leaves its pairs. -/
def connectionClosed (n : Node τ) (conn : ConnId) : Node τ :=
  match n.find? conn with
  | some k => (((n.unregister conn).alter k Session.beginClose).discard k).2.detach k
  | none => n

variable [Transport τ]

/-- Opens a connection for a pair. With `relayFor` it only asks that domain to verify a key. -/
def openConnection (n : Node τ) (pair : DomainPair) (relayFor : Option String) :
    Except TrustError SessionKey × Node τ :=
  match n.entry pair with
  | (.error e, n) => (.error (.domain e), n)
  | (.ok p, n) =>
    match n.connect p with
    | (.error e, n) => (.error (.transport e), n)
    | (.ok conn, n) =>
      let k := n.sessions.length
      let n := n.addSession (.opened conn p relayFor n.nextIdentifier)
      let n := (n.addOutgoing p k).register conn k
      -- A connection that died before it was registered has told nobody about its end.
      (.ok k, if Transport.isOpen n.transport conn then n else n.connectionClosed conn)

/-- An open connection that may ask the peer of a pair to verify a key, a new relay if
there is none. -/
def verifier (n : Node τ) (pair : DomainPair) : Except TrustError SessionKey × Node τ :=
  match n.usableOutgoing? pair with
  | some k => (.ok k, n)
  | none => n.openConnection pair (some pair.peer)

/-- Asks the authoritative server of the peer of a pair whether a key is right that was presented on
a stream of ours. The request waits until the peer has announced its stream. -/
def requestVerification (n : Node τ) (pair : DomainPair) (streamId key : String) :
    Except TrustError Unit × Node τ :=
  match n.entry pair with
  | (.error e, n) => (.error (.domain e), n)
  | (.ok p, n) =>
    match n.verifier p with
    | (.error e, n) => (.error e, n)
    | (.ok k, n) =>
      let n := n.alter k (·.addVerifyRequest p.peer streamId)
      let n := n.alter k (·.enqueue (Stanza.verifyRequest p.own p.peer streamId key))
      if (n.session k).peerStreamId.isSome then
        let (outcome, n) := n.flush k
        ((outcome.map fun _ => ()).mapError .transport, n)
      else (.ok (), n)

def route? (n : Node τ) (pair : DomainPair) : Option SessionKey :=
  if n.registry.isAuthenticated pair then n.routableLink? pair else none

def send (n : Node τ) (pair : DomainPair) (stanza : Element) : Except TrustError Unit × Node τ :=
  match n.route? pair with
  | none => (.error (.notAuthenticated pair), n)
  | some k =>
    let (outcome, n) := n.sendNow k stanza
    (outcome.mapError .transport, n)

end Federation.Node
