import Federation.Connection.Basic
import Federation.Domain.Pair
import Federation.Element.Basic

/-!
Sessions: what is known about one physical connection. A session says for which pairs the
connection is trusted, which requests of ours are still unanswered on it, and which control stanzas
wait to be written. Its functions change one session only; what they write is up to the node.
-/

namespace Federation

/-- The number of a session among all sessions a node ever had, by which links refer to it. -/
abbrev SessionKey := Nat

structure Session where
  conn : ConnId
  role : Role
  /-- The stream id that we generated for the connection. -/
  streamId : String
  /-- The domain that is asked to verify one key, if the connection is a relay for that. -/
  relayFor : Option String := none
  address : String := ""
  pair : Option DomainPair := none
  peerStreamId : Option String := none
  trust : CertTrust := .unknown
  tlsActive : Bool := false
  method : Option String := none
  /-- The domains that a key of ours was sent to and that did not answer yet. -/
  keyRequests : List String := []
  /-- The domains asked to verify the key of a stream that did not answer yet. -/
  verifyRequests : List (String × String) := []
  /-- The pairs whose links the connection has joined. -/
  joined : List DomainPair := []
  trusted : List DomainPair := []
  isAuthenticated : Bool := false
  isClosing : Bool := false
  phase : Phase := .streamOpened
  waiting : List Element := []
  deriving Inhabited

namespace Session

def accepted (conn : ConnId) (address streamId : String) : Session :=
  { conn := conn, role := .inbound, streamId := streamId, address := address }

def opened (conn : ConnId) (pair : DomainPair) (relayFor : Option String) (streamId : String) :
    Session :=
  { conn := conn, role := .outbound, streamId := streamId, relayFor := relayFor, pair := some pair }

def text (s : Session) : String :=
  s.conn.text ++ "/" ++ s.role.label

def isRelay (s : Session) : Bool :=
  s.relayFor.isSome

def pairOr (s : Session) (pair : DomainPair) : DomainPair :=
  s.pair.getD pair

def setPair (pair : DomainPair) (s : Session) : Session :=
  { s with pair := some pair }

def adoptPair (pair : DomainPair) (s : Session) : Session :=
  { s with pair := some (s.pairOr pair) }

def setPeerStreamId (id : String) (s : Session) : Session :=
  { s with peerStreamId := some id }

def recordTls (trust : CertTrust) (s : Session) : Session :=
  { s with tlsActive := true, trust := trust }

def setMethod (method : String) (s : Session) : Session :=
  { s with method := some method }

/-- Moves to a phase unless the negotiation has ended. -/
def setPhase (phase : Phase) (s : Session) : Session :=
  if s.phase.isFinal then s else { s with phase := phase }

def addKeyRequest (domain : String) (s : Session) : Session :=
  { s with keyRequests := s.keyRequests.insert (Text.lower domain) }

def hasKeyRequest (s : Session) (domain : String) : Bool :=
  s.keyRequests.contains (Text.lower domain)

def dropKeyRequest (domain : String) (s : Session) : Session :=
  { s with keyRequests := s.keyRequests.filter (· != Text.lower domain) }

def addVerifyRequest (domain streamId : String) (s : Session) : Session :=
  { s with verifyRequests := s.verifyRequests.insert (Text.lower domain, streamId) }

def hasVerifyRequest (s : Session) (domain streamId : String) : Bool :=
  s.verifyRequests.contains (Text.lower domain, streamId)

def hasAnyVerifyRequest (s : Session) (domain : String) : Bool :=
  s.verifyRequests.any (·.1 == Text.lower domain)

def dropVerifyRequest (domain streamId : String) (s : Session) : Session :=
  { s with verifyRequests := s.verifyRequests.filter (· != (Text.lower domain, streamId)) }

def join (pair : DomainPair) (s : Session) : Session :=
  { s with joined := s.joined.insert pair }

def isTrustedFor (s : Session) (pair : DomainPair) : Bool :=
  s.trusted.contains pair

/-- Records that the connection is trusted for a pair. Only a closed connection keeps its phase. -/
def markTrusted (pair : DomainPair) (s : Session) : Session :=
  { s with
    trusted := s.trusted.insert pair
    isAuthenticated := true
    phase := if s.phase = .closed then .closed else .authenticated }

def beginClose (s : Session) : Session :=
  { s with isClosing := true, phase := .closed }

def enqueue (stanza : Element) (s : Session) : Session :=
  { s with waiting := s.waiting ++ [stanza] }

def clearQueue (s : Session) : Session :=
  { s with waiting := [] }

end Session

end Federation
