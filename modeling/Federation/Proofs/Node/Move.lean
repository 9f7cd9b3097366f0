import Federation.Node.Run
import Federation.Processor.Standard
import Federation.Proofs.Domain.Canonical
import Federation.Proofs.Node.Frame
import Mathlib.Logic.Relation

/-!
The moves of a node. Whatever a node does on an event is a sequence of a few kinds of moves, each
made for a cause and under a condition. What holds of every move holds of every event, so that an
invariant is shown for moves only.
-/

namespace Federation

/-- The pair that the addressing of a stanza spells, valid here or not. -/
def Element.spelled (e : Element) : DomainPair :=
  DomainPair.ofAddresses ((e.attr? "to").getD "") ((e.attr? "from").getD "")

/-- The canonical pair that the addressing of a stanza names, if it names one that is valid here. -/
def Directory.pairNamed? (d : Directory) (stanza : Element) : Option DomainPair :=
  match stanza.attr? "to", stanza.attr? "from" with
  | some recipient, some sender =>
    let pair := DomainPair.ofAddresses recipient sender
    (DomainPair.checked pair.own pair.peer d.isServed).toOption
  | _, _ => none

def Directory.acceptsKey (d : Directory) (pair : DomainPair) (streamId presented : String) : Bool :=
  match d.secretFor pair.own with
  | .ok secret => Key.accepts (Key.derive pair.own pair.peer secret streamId) presented
  | .error _ => false

/-- What makes a node act: an operation, or what a peer sent on the connection of a session. -/
inductive Cause where
  | call (event : Event)
  | header (k : SessionKey) (header : StreamHeader)
  | heard (k : SessionKey) (stanza : Element)

/-- The causes on which a pair may become trusted: a verdict or an answer that finds a key valid,
and the features of a peer. -/
inductive Cause.MayGrant : Cause → Prop
  | dialback (k : SessionKey) (stanza : Element) (hkind : (DialbackKind.of? stanza).isSome)
      (htype : (stanza.attr? "type").map Verdict.parse = some .valid) : MayGrant (.heard k stanza)
  | features (k : SessionKey) (stanza : Element) (hfeatures : Stanza.isStreamFeatures stanza) :
      MayGrant (.heard k stanza)

namespace Node

variable {τ : Type}

def cause (n : Node τ) (event : Event) : Cause :=
  match event with
  | .streamOpened conn header =>
    match n.find? conn with
    | some k => .header k header
    | none => .call event
  | .receive conn stanza =>
    match n.find? conn with
    | some k => .heard k stanza
    | none => .call event
  | _ => .call event

def demandsTls (n : Node τ) (p : DomainPair) : Bool :=
  !n.skipsTls p.peer && n.directory.requiresTls p.own

/-- The causes on which our key for a pair is presented on a session: a header that announces no
version, whatever the pair demands, or the features of the peer. -/
inductive MayPresent (n : Node τ) (k : SessionKey) (p : DomainPair) : Cause → Prop
  | header (header : StreamHeader) (hversion : header.version = none) :
      MayPresent n k p (.header k header)
  | features (stanza : Element) (hkind : DialbackKind.of? stanza = none)
      (hfeatures : Stanza.isStreamFeatures stanza)
      (htls : n.demandsTls p → (n.session k).tlsActive) : MayPresent n k p (.heard k stanza)

inductive Concerns (n : Node τ) (p : DomainPair) : Cause → Prop
  | named (k : SessionKey) (stanza : Element) (hkind : (DialbackKind.of? stanza).isSome)
      (hnamed : n.directory.pairNamed? stanza = some p) : Concerns n p (.heard k stanza)
  | own (k : SessionKey) (stanza : Element) (pair : DomainPair)
      (hkind : DialbackKind.of? stanza = none) (hrole : (n.session k).role = .outbound)
      (hpair : (n.session k).pair = some pair)
      (hcheck : DomainPair.checked pair.own pair.peer n.directory.isServed = .ok p) :
      Concerns n p (.heard k stanza)
  | opening (pair : DomainPair) (relayFor : Option String)
      (hcheck : DomainPair.checked pair.own pair.peer n.directory.isServed = .ok p) :
      Concerns n p (.call (.openConnection pair relayFor))
  | asking (pair : DomainPair) (id key : String)
      (hcheck : DomainPair.checked pair.own pair.peer n.directory.isServed = .ok p) :
      Concerns n p (.call (.requestVerification pair id key))

/-- The causes for which the peer of a pair is asked whether a key is right for a stream. -/
inductive Asks (n : Node τ) (p : DomainPair) (id key : String) : Cause → Prop
  | caller (pair : DomainPair)
      (hcheck : DomainPair.checked pair.own pair.peer n.directory.isServed = .ok p) :
      Asks n p id key (.call (.requestVerification pair id key))
  | presented (k : SessionKey) (stanza : Element) (hk : k < n.sessions.length)
      (hkind : DialbackKind.of? stanza = some .result)
      (htype : stanza.attr? "type" = none) (hnamed : n.directory.pairNamed? stanza = some p)
      (hid : (n.session k).streamId = id) (hkey : Text.trim (stanza.cdata.getD "") = key)
      (hblank : key ≠ "") : Asks n p id key (.heard k stanza)

inductive Opens (n : Node τ) (p : DomainPair) : Option String → Cause → Prop
  | caller (pair : DomainPair) (relayFor : Option String)
      (hcheck : DomainPair.checked pair.own pair.peer n.directory.isServed = .ok p) :
      Opens n p relayFor (.call (.openConnection pair relayFor))
  | relay {c : Cause} (id key : String) (hasks : Asks n p id key c) :
      Opens n p (some p.peer) c

/-- What may be noted in a session without an effect on trust or on requests. -/
inductive Remark (n : Node τ) (k : SessionKey) : Cause → (Session → Session) → Prop
  | phase {c : Cause} (phase : Phase) (hphase : phase.isFinal = false) :
      Remark n k c (·.setPhase phase)
  | method {c : Cause} (method : String) : Remark n k c (·.setMethod method)
  | tls (conn : ConnId) (trust : CertTrust) (hk : n.find? conn = some k) :
      Remark n k (.call (.tlsCompleted conn trust)) (·.recordTls trust)
  | peerStream (header : StreamHeader) (id : String) (hrole : (n.session k).role = .outbound)
      (hid : header.id = some id) : Remark n k (.header k header) (·.setPeerStreamId id)
  | headerPair (header : StreamHeader) (pair : DomainPair)
      (hrole : (n.session k).role = .inbound) (hpair : n.headerPair header = .ok (some pair)) :
      Remark n k (.header k header) (·.setPair pair)
  | adopt (stanza : Element) (pair : DomainPair) :
      Remark n k (.heard k stanza) (·.adoptPair pair)

def withEntry (n : Node τ) (p : DomainPair) : Node τ :=
  { n with registry := n.registry.ensure p }

/-- The node that takes in a dialback stanza: the session adopts the pair that is spelled, unless it
has one, and joins the canonical pair if the peer opened it. -/
def takeIn (n : Node τ) (k : SessionKey) (spelled p : DomainPair) : Node τ :=
  let n := (n.alter k (·.adoptPair spelled)).withEntry p
  if (n.session k).role = .inbound then n.addIncoming p k else n

def establish (n : Node τ) (p : DomainPair) (relayFor : Option String) (conn : ConnId) : Node τ :=
  ((n.addSession (.opened conn p relayFor n.nextIdentifier)).addOutgoing p
    n.sessions.length).register conn n.sessions.length

variable [Transport τ]

def offerKey (n : Node τ) (k : SessionKey) (p : DomainPair) (key : String) : Node τ :=
  ((((n.alter k (·.addKeyRequest p.peer)).alter k (·.enqueue (Stanza.key p.own p.peer key))).alter k
    (·.setPhase .keySent)).flush k).2

/-- What a node says on a session past its queue. -/
inductive Utterance (n : Node τ) : SessionKey → Cause → Element → Prop
  | complaint {c : Cause} (k : SessionKey) (condition : String) :
      Utterance n k c (Stanza.streamError condition)
  | refusal (k : SessionKey) (heard : Element) (pair : DomainPair) (condition : String) :
      Utterance n k (.heard k heard)
        (Stanza.resultReply pair.own pair.peer .error (some (Stanza.error "cancel" condition)))
  | answer (k : SessionKey) (heard : Element) (recipient sender id : String) (pair : DomainPair)
      (hkind : DialbackKind.of? heard = some .verify) (htype : heard.attr? "type" = none)
      (hto : heard.attr? "to" = some recipient) (hfrom : heard.attr? "from" = some sender)
      (hid : heard.attr? "id" = some id) (hpair : pair = DomainPair.ofAddresses recipient sender) :
      Utterance n k (.heard k heard) (Stanza.verifyReply pair.own pair.peer id
        (n.directory.acceptsKey pair id (heard.cdata.getD "")))
  | verdict (r k : SessionKey) (heard : Element) (p : DomainPair) (id : String)
      (verdict : Verdict) (hkind : DialbackKind.of? heard = some .verify)
      (htype : (heard.attr? "type").map Verdict.parse = some verdict)
      (hid : heard.attr? "id" = some id) (hnamed : n.directory.pairNamed? heard = some p)
      (hlink : k ∈ n.incomingKeys p) (hstream : (n.session k).streamId = id) :
      Utterance n k (.heard r heard)
        (Stanza.resultReply p.own p.peer (.ofBool (decide (verdict = .valid))) none)
  | traffic (k : SessionKey) (pair : DomainPair) (stanza : Element)
      (hroute : n.route? pair = some k) : Utterance n k (.call (.send pair stanza)) stanza

/-- The sessions on which a request to verify may be queued: an open link of the pair, or the relay
that was just opened, which may already be dead. -/
inductive Carries (n : Node τ) (p : DomainPair) (k : SessionKey) : Prop
  | usable (h : n.usableOutgoing? p = some k)
  | fresh (conn : ConnId) (id : String) (hk : k < n.sessions.length)
      (h : n.session k = (Session.opened conn p (some p.peer) id).join p ∨
        n.session k = ((Session.opened conn p (some p.peer) id).join p).beginClose)

/-- Why the queue of a session is written: the peer has announced its stream, or a pair of the
session has become trusted. -/
def MayFlush (n : Node τ) (k : SessionKey) (c : Cause) : Prop :=
  (n.session k).peerStreamId.isSome ∨
    c.MayGrant ∧ ∃ p, k ∈ n.linkKeys p ∧ n.registry.isAuthenticated p ∧
      (n.session k).isClosing = false

inductive Move : Cause → Node τ → Node τ → Prop
  | remark {n : Node τ} {c : Cause} (k : SessionKey) (f : Session → Session)
      (h : Remark n k c f) : Move c n (n.alter k f)
  | ensure {n : Node τ} {c : Cause} (p : DomainPair) (h : Concerns n p c) :
      Move c n (n.withEntry p)
  | join {n : Node τ} (k : SessionKey) (stanza : Element) (p : DomainPair)
      (hrole : (n.session k).role = .inbound) (hkind : (DialbackKind.of? stanza).isSome)
      (hnamed : n.directory.pairNamed? stanza = some p) (hentry : (n.registry.get? p).isSome)
      (hlive : n.find? (n.session k).conn = some k) :
      Move (.heard k stanza) n (n.addIncoming p k)
  | offerKey {n : Node τ} {c : Cause} (k : SessionKey) (p : DomainPair) (id secret : String)
      (hmay : MayPresent n k p c) (hrole : (n.session k).role = .outbound)
      (hpair : (n.session k).pair = some p) (hrelay : (n.session k).isRelay = false)
      (hid : (n.session k).peerStreamId = some id)
      (hsecret : n.directory.secretFor p.own = .ok secret) :
      Move c n (n.offerKey k p (Key.derive p.own p.peer secret id))
  | queueRequest {n : Node τ} {c : Cause} (k : SessionKey) (p : DomainPair) (id key : String)
      (hasks : Asks n p id key c) (hcarries : Carries n p k) :
      Move c n ((n.alter k (·.addVerifyRequest p.peer id)).alter k
        (·.enqueue (Stanza.verifyRequest p.own p.peer id key)))
  | flush {n : Node τ} {c : Cause} (k : SessionKey) (h : MayFlush n k c) :
      Move c n (n.flush k).2
  | say {n : Node τ} {c : Cause} (k : SessionKey) (stanza : Element) (h : Utterance n k c stanza) :
      Move c n (n.sendNow k stanza).2
  | stop {n : Node τ} {c : Cause} (k : SessionKey) (force : Bool) : Move c n (n.stop k force)
  | grantVerdict {n : Node τ} (k : SessionKey) (stanza : Element) (p : DomainPair)
      (hkind : DialbackKind.of? stanza = some .result)
      (htype : (stanza.attr? "type").map Verdict.parse = some .valid)
      (hnamed : n.directory.pairNamed? stanza = some p) (hentry : (n.registry.get? p).isSome)
      (hrequest : (n.session k).hasKeyRequest p.peer)
      (hlive : n.find? (n.session k).conn = some k) :
      Move (.heard k stanza) n ((n.alter k (·.dropKeyRequest p.peer)).trust p k)
  | grantCertificate {n : Node τ} (k : SessionKey) (stanza : Element) (pair p : DomainPair)
      (hkind : DialbackKind.of? stanza = none) (hrole : (n.session k).role = .outbound)
      (hpair : (n.session k).pair = some pair)
      (hcheck : DomainPair.checked pair.own pair.peer n.directory.isServed = .ok p)
      (htrusted : (n.session k).trust = .trusted) (hentry : (n.registry.get? p).isSome)
      (hlive : n.find? (n.session k).conn = some k) :
      Move (.heard k stanza) n (n.trust p k)
  | grantRelayed {n : Node τ} (r t : SessionKey) (stanza : Element) (p : DomainPair) (id : String)
      (hkind : DialbackKind.of? stanza = some .verify)
      (htype : (stanza.attr? "type").map Verdict.parse = some .valid)
      (hid : stanza.attr? "id" = some id) (hnamed : n.directory.pairNamed? stanza = some p)
      (hentry : (n.registry.get? p).isSome)
      (hrequest : (n.session r).hasVerifyRequest p.peer id)
      (htarget : n.incomingByStream? p id = some t) :
      Move (.heard r stanza) n ((n.alter r (·.dropVerifyRequest p.peer id)).trust p t)
  | settle {n : Node τ} (r : SessionKey) (stanza : Element) (p : DomainPair) (id : String)
      (verdict : Verdict) (hkind : DialbackKind.of? stanza = some .verify)
      (htype : (stanza.attr? "type").map Verdict.parse = some verdict)
      (hid : stanza.attr? "id" = some id) (hnamed : n.directory.pairNamed? stanza = some p)
      (hrequest : (n.session r).hasVerifyRequest p.peer id)
      (hverdict : verdict = .valid → n.incomingByStream? p id = none) :
      Move (.heard r stanza) n (n.alter r (·.dropVerifyRequest p.peer id))
  | accept {n : Node τ} (conn : ConnId) (address : String) :
      Move (.call (.accept conn address)) n (n.accept conn address).2
  | refuse {n : Node τ} {c : Cause} (p : DomainPair) (relayFor : Option String) (e : TransportError)
      (h : Opens n p relayFor c) (hconn : (n.connect p).1 = .error e) :
      Move c n (n.connect p).2
  | establish {n : Node τ} {c : Cause} (p : DomainPair) (relayFor : Option String) (conn : ConnId)
      (h : Opens n p relayFor c) (hentry : (n.registry.get? p).isSome)
      (hconn : (n.connect p).1 = .ok conn) :
      Move c n ((n.connect p).2.establish p relayFor conn)
  | close {n : Node τ} {c : Cause} (conn : ConnId) (k : SessionKey) (h : n.find? conn = some k)
      (hgone : c = .call (.connectionClosed conn) ∨ Transport.isOpen n.transport conn = false) :
      Move c n (n.connectionClosed conn)
  | arm {n : Node τ} (conn : ConnId) (timeout : Duration) (k : SessionKey)
      (h : n.find? conn = some k) : Move (.call (.serviceStarted conn)) n (n.arm timeout k)
  | tick {n : Node τ} (milliseconds clock : Nat) (alarms : List Alarm)
      (hkept : ∀ alarm ∈ alarms, alarm ∈ n.alarms) :
      Move (.call (.advance milliseconds)) n { n with clock := clock, alarms := alarms }

abbrev Moves (c : Cause) : Node τ → Node τ → Prop :=
  Relation.ReflTransGen (Move c)

/-- What every move keeps, a sequence of moves keeps. -/
theorem Moves.kept {P : Node τ → Prop} (hmove : ∀ {c n m}, Move c n m → P n → P m)
    {n m : Node τ} {c : Cause} (h : Moves c n m) (hn : P n) : P m := by
  induction h with
  | refl => exact hn
  | tail _ hlast ih => exact hmove hlast ih

end Node

end Federation
