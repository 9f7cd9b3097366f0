import Federation.Transport.Basic

/-!
Why trust cannot be negotiated or used, and what the peer is told about it.
-/

namespace Federation

inductive TrustError where
  | domain (error : DomainError)
  | transport (error : TransportError)
  | missingStreamId
  | unknownConnection (conn : ConnId)
  | notAuthenticated (pair : DomainPair)
  deriving DecidableEq

namespace TrustError

def message : TrustError → String
  | .domain error => "domain error: " ++ error.message
  | .transport error => "transport error: " ++ error.message
  | .missingStreamId => "remote stream id missing"
  | .unknownConnection conn => "unknown connection " ++ conn.text
  | .notAuthenticated pair => "domain pair " ++ pair.text ++ " is not authenticated"

def condition : TrustError → String
  | .domain (.notLocal _) => "host-unknown"
  | .domain _ => "invalid-from"
  | .missingStreamId => "bad-request"
  | .transport _ => "internal-server-error"
  | .unknownConnection _ => "internal-server-error"
  | .notAuthenticated _ => "not-authorized"

end TrustError

end Federation
