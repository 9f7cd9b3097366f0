import Federation.Dialback.Key
import Federation.Node.Watchdog
import Federation.Processor.Basic
import Federation.Stanza.Dialback

/-!
Server dialback, all three parts of it. As the originating server a node presents a key that it
derives from its secret and the stream id of the peer. As the receiving server it has the
authoritative server of the peer verify such a key over another connection. As the authoritative
server it derives the key again and answers.
-/

namespace Federation

def dialbackMethod : String := "dialback"

def certificateMethod : String := "tls"

namespace Node

variable {τ : Type} [Transport τ]

/-- Queues our key, unless the connection is a relay, and writes what waits. -/
def presentKey (n : Node τ) (k : SessionKey) : Node τ :=
  let s := n.session k
  match s.peerStreamId with
  | none => n.failStream k TrustError.missingStreamId.condition false
  | some peerStreamId =>
    match s.pair with
    | none => n.failStream k "improper-addressing" false
    | some pair =>
      match n.directory.secretFor pair.own with
      | .error e => n.failStream k (TrustError.domain e).condition false
      | .ok secret =>
        let n := n.alter k (·.setMethod dialbackMethod)
        let n :=
          if s.isRelay then n.alter k (·.setPhase .awaitingVerify)
          else
            let key := Key.derive pair.own pair.peer secret peerStreamId
            let n := n.alter k (·.addKeyRequest pair.peer)
            let n := n.alter k (·.enqueue (Stanza.key pair.own pair.peer key))
            n.alter k (·.setPhase .keySent)
        (n.flush k).2

def receiveFeatures (n : Node τ) (workaround : Bool) (k : SessionKey) (features : Element) :
    Bool × Node τ :=
  let s := n.session k
  if s.method.isSome && s.method != some dialbackMethod then (true, n)
  else
    match s.pair with
    | none => (false, n)
    | some pair =>
      let needsTls := !n.skipsTls pair.peer && !s.tlsActive
      if features.hasChild "starttls" Namespace.startTls && needsTls then
        (true, n.alter k (·.setPhase .tlsDecision))
      else if s.trust = .trusted && !features.hasChild "dialback" Namespace.dialbackFeature &&
          !workaround then
        match n.entry pair with
        | (.error e, n) => (true, n.failStream k (TrustError.domain e).condition true)
        | (.ok p, n) => (true, (n.alter k (·.setMethod certificateMethod)).authenticate p k)
      else if needsTls && n.directory.requiresTls pair.own then
        (true, n.failStream k "policy-violation" true)
      else (true, n.presentKey k)

/-- Writes an answer; one that the transport does not take is lost. -/
def reply (n : Node τ) (k : SessionKey) (stanza : Element) : Node τ :=
  (n.sendNow k stanza).2

def refuseKey (n : Node τ) (k : SessionKey) (pair : DomainPair) (condition : String) : Node τ :=
  n.reply k (Stanza.resultReply pair.own pair.peer .error (some (Stanza.error "cancel" condition)))

/-- Acts on a key that a peer presents. The connection's own pair decides about TLS, the pair of the
stanza is the one to be verified. -/
def receiveKey (n : Node τ) (k : SessionKey) (pair : DomainPair) (stanza : Element) : Node τ :=
  let s := n.session k
  let own := s.pairOr pair
  if !n.skipsTls own.peer && !s.tlsActive && n.directory.requiresTls own.own then
    n.refuseKey k pair "policy-violation"
  else
    let key := Text.trim (stanza.cdata.getD "")
    if key = "" then n.failStream k "bad-request" false
    else
      match (n.alter k (·.setPhase .awaitingVerify)).requestVerification pair s.streamId key with
      | (.ok _, n) => n
      | (.error _, n) => n.refuseKey k pair "remote-server-not-found"

/-- Acts on the verdict on our key. Only a key that we sent can be found valid. -/
def receiveVerdict (n : Node τ) (k : SessionKey) (pair : DomainPair) (verdict : Verdict) : Node τ :=
  match verdict with
  | .valid =>
    if (n.session k).hasKeyRequest pair.peer then
      (n.alter k (·.dropKeyRequest pair.peer)).authenticate pair k
    else n
  | .invalid => n.stop k false
  | .error => n.stop k false

def answerVerify (n : Node τ) (k : SessionKey) (pair : DomainPair) (stanza : Element) : Node τ :=
  match stanza.attr? "id" with
  | none => n.failStream k "bad-request" false
  | some streamId =>
    let isRight :=
      match n.directory.secretFor pair.own with
      | .ok secret =>
        Key.accepts (Key.derive pair.own pair.peer secret streamId) (stanza.cdata.getD "")
      | .error _ => false
    n.reply k (Stanza.verifyReply pair.own pair.peer streamId isRight)

/-- Passes the answer of an authoritative server on to the connection that presented the key, if we
asked for it. -/
def relayVerdict (n : Node τ) (k : SessionKey) (pair : DomainPair) (stanza : Element)
    (verdict : Verdict) : Node τ :=
  match stanza.attr? "id" with
  | none => n
  | some streamId =>
    if !(n.session k).hasVerifyRequest pair.peer streamId then n
    else
      let n := n.alter k (·.dropVerifyRequest pair.peer streamId)
      let isValid := decide (verdict = .valid)
      let (target, n) :=
        if isValid then n.authenticateByStream pair streamId
        else (n.incomingByStream? pair streamId, n)
      match target with
      | none => n
      | some target =>
        n.reply target (Stanza.resultReply pair.own pair.peer (.ofBool isValid) none)

/-- Acts on the answer of an authoritative server. A relay has served its purpose then, whatever the
answer is. -/
def receiveVerifyReply (n : Node τ) (k : SessionKey) (pair : DomainPair) (stanza : Element)
    (verdict : Verdict) : Node τ :=
  let n := n.relayVerdict k pair stanza verdict
  if (n.session k).isRelay then n.stop k false else n

/-- Acts on a dialback stanza by its kind and by whether it has a `type`. The stanza names `pair` as
it stands, and `canonical` is the pair that this means. -/
def dispatchDialback (n : Node τ) (k : SessionKey) (kind : DialbackKind)
    (pair canonical : DomainPair) (stanza : Element) : Node τ :=
  match kind, (stanza.attr? "type").map Verdict.parse with
  | .result, none => n.receiveKey k pair stanza
  | .result, some verdict => n.receiveVerdict k canonical verdict
  | .verify, none => n.answerVerify k pair stanza
  | .verify, some verdict => n.receiveVerifyReply k canonical stanza verdict

/-- Acts on a dialback stanza. Its addressing must name a pair that is valid here, and an inbound
connection joins the links of that pair. -/
def receiveDialback (n : Node τ) (k : SessionKey) (kind : DialbackKind) (stanza : Element) :
    Node τ :=
  match stanza.attr? "to", stanza.attr? "from" with
  | some recipient, some sender =>
    let pair := DomainPair.ofAddresses recipient sender
    match (n.alter k (·.adoptPair pair)).entry pair with
    | (.error e, n) => n.failStream k (TrustError.domain e).condition false
    | (.ok canonical, n) =>
      let n := if (n.session k).role = .inbound then n.addIncoming canonical k else n
      n.dispatchDialback k kind pair canonical stanza
  | _, _ => n.failStream k "improper-addressing" false

end Node

/-- The dialback processor. With `workaround` it presents a key also to a peer whose certificate is
trusted and that does not offer dialback. -/
def Processor.dialback {τ : Type} [Transport τ] (timeout : Duration) (workaround : Bool) :
    Processor τ where
  name := "dialback"
  order := .dialback
  process n k e :=
    match DialbackKind.of? e with
    | some kind => (true, n.receiveDialback k kind e)
    | none =>
      if (n.session k).role = .outbound && Stanza.isStreamFeatures e then
        n.receiveFeatures workaround k e
      else (false, n)
  streamOpened n k header :=
    match (n.session k).role with
    | .inbound => (none, n.alter k (·.setPhase .awaitingKey))
    | .outbound =>
      if header.version.isSome then (none, n.alter k (·.setPhase .awaitingFeatures))
      else (none, n.presentKey k)
  features n k :=
    if (n.session k).role = .inbound && !(n.session k).isAuthenticated then
      [Stanza.dialbackFeature]
    else []
  serviceStarted n k := n.arm timeout k

end Federation
