import Federation.Connection.Basic
import Federation.Domain.Pair
import Federation.Value

/-!
The names by which roles, certificate outcomes and phases are stored, and reading them back from
structured values, pairs among them. A stored pair is taken as it is, in whatever case.
-/

namespace Federation

namespace Role

def name : Role → String
  | .outbound => "Outbound"
  | .inbound => "Inbound"

def ofName? (name : String) : Option Role :=
  [outbound, inbound].find? (·.name == name)

def ofValue? (v : Value) : Option Role :=
  v.variant?.bind ofName?

end Role

namespace CertTrust

def name : CertTrust → String
  | .unknown => "Unknown"
  | .untrusted => "Untrusted"
  | .trusted => "Trusted"

def ofName? (name : String) : Option CertTrust :=
  [unknown, untrusted, trusted].find? (·.name == name)

def ofValue? (v : Value) : Option CertTrust :=
  v.variant?.bind ofName?

end CertTrust

namespace Phase

def name : Phase → String
  | .streamOpened => "StreamOpened"
  | .awaitingFeatures => "AwaitingFeatures"
  | .tlsDecision => "TlsDecision"
  | .keySent => "DialbackKeySent"
  | .awaitingKey => "AwaitingKey"
  | .awaitingVerify => "AwaitingVerify"
  | .authenticated => "Authenticated"
  | .closed => "Closed"

def ofName? (name : String) : Option Phase :=
  [streamOpened, awaitingFeatures, tlsDecision, keySent, awaitingKey, awaitingVerify,
    authenticated, closed].find? (·.name == name)

end Phase

def DomainPair.ofValue? : Value → Option DomainPair
  | .list [.text own, .text peer] => some ⟨own, peer⟩
  | .record fields =>
    match fields.lookup "local", fields.lookup "remote" with
    | some (.text own), some (.text peer) => some ⟨own, peer⟩
    | _, _ => none
  | _ => none

end Federation
