/-!
Connections: the number a transport gives to each, the side on which we stand, the outcome of the
certificate check, and the phases of a negotiation.
-/

namespace Federation

structure ConnId where
  number : Nat
  deriving DecidableEq, Inhabited

def ConnId.text (conn : ConnId) : String :=
  "conn-" ++ toString conn.number

/-- Who opened a connection: we did if it is outbound, the peer if it is inbound. -/
inductive Role where
  | outbound
  | inbound
  deriving DecidableEq, Inhabited

def Role.label : Role → String
  | .outbound => "outbound"
  | .inbound => "inbound"

/-- The outcome of the certificate check: unknown before a TLS handshake, and trusted only if the
certificate is valid for the peer domain. -/
inductive CertTrust where
  | unknown
  | untrusted
  | trusted
  deriving DecidableEq, Inhabited

inductive Phase where
  | streamOpened
  /-- The peer announced a version, its features are still to come. -/
  | awaitingFeatures
  /-- The peer offered STARTTLS, the outcome is still to come. -/
  | tlsDecision
  | keySent
  | awaitingKey
  | awaitingVerify
  | authenticated
  | closed
  deriving DecidableEq, Inhabited

def Phase.isFinal (phase : Phase) : Bool :=
  phase == .authenticated || phase == .closed

end Federation
