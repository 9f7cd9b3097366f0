import Federation.Proofs.Secrecy.Alike
import Federation.Proofs.Trust.Authority

/-!
Secrets do not leak into control flow. Two nodes that serve the same domains, with different
secrets, and to which the same happens do the same: they ask the same of their transports in the
same order and come to the same state, except for the keys that they present and for what they
answer about keys. Every operation of a node takes nodes that are alike to nodes that are alike, and
gives the same result on both.
-/

namespace Federation

namespace Node.Alike

variable {τ : Type} {R : τ → τ → Prop} {n n' : Node τ} (h : n.Alike R n')

section Links

include h

theorem link (k : SessionKey) : n'.link k = n.link k := by
  rw [Node.link, h.view Session.conn fun _ _ => rfl, Node.link]

theorem linkKeys (pair : DomainPair) : n'.linkKeys pair = n.linkKeys pair := by
  rw [Node.linkKeys, h.registry, Node.linkKeys]

theorem incomingKeys (pair : DomainPair) : n'.incomingKeys pair = n.incomingKeys pair := by
  rw [Node.incomingKeys, h.registry, Node.incomingKeys]

theorem outgoingKeys (pair : DomainPair) : n'.outgoingKeys pair = n.outgoingKeys pair := by
  rw [Node.outgoingKeys, h.registry, Node.outgoingKeys]

theorem addIncoming (pair : DomainPair) (k : SessionKey) :
    (n.addIncoming pair k).Alike R (n'.addIncoming pair k) := by
  unfold Node.addIncoming
  rw [h.registry, h.link]
  exact (h.withRegistry _).alter k (f := (·.join pair)) fun _ _ => rfl

theorem addOutgoing (pair : DomainPair) (k : SessionKey) :
    (n.addOutgoing pair k).Alike R (n'.addOutgoing pair k) := by
  unfold Node.addOutgoing
  rw [h.registry, h.link]
  exact (h.withRegistry _).alter k (f := (·.join pair)) fun _ _ => rfl

theorem addLink (pair : DomainPair) (k : SessionKey) :
    (n.addLink pair k).Alike R (n'.addLink pair k) := by
  unfold Node.addLink
  rw [h.view Session.role fun _ _ => rfl]
  split
  · exact h.addIncoming pair k
  · exact h.addOutgoing pair k

theorem detach (k : SessionKey) : (n.detach k).Alike R (n'.detach k) := by
  unfold Node.detach
  simp only [h.registry, h.view Session.joined fun _ _ => rfl, h.view Session.conn fun _ _ => rfl]
  exact h.withRegistry _

theorem trust (pair : DomainPair) (k : SessionKey) :
    (n.trust pair k).Alike R (n'.trust pair k) := by
  have hmarked := (h.addLink pair k).alter k (f := (·.markTrusted pair)) fun _ _ => rfl
  unfold Node.trust
  simp only [hmarked.registry]
  exact hmarked.withRegistry _

theorem incomingByStream? (pair : DomainPair) (id : String) :
    n'.incomingByStream? pair id = n.incomingByStream? pair id := by
  unfold Node.incomingByStream?
  rw [h.incomingKeys]
  congr 1
  funext k
  rw [h.view Session.streamId fun _ _ => rfl]

variable [Transport τ] (hblind : Transport.Blind R)

include hblind

theorem flushIfUp (k : SessionKey) : (n.flushIfUp k).Alike R (n'.flushIfUp k) := by
  unfold Node.flushIfUp
  rw [h.view Session.isClosing fun _ _ => rfl]
  split
  · exact h
  · exact (h.flush hblind k).node

theorem flushPair (pair : DomainPair) : (n.flushPair pair).Alike R (n'.flushPair pair) := by
  have hkeys : ∀ (keys : List SessionKey) {n n' : Node τ}, n.Alike R n' →
      (keys.foldl Node.flushIfUp n).Alike R (keys.foldl Node.flushIfUp n') := by
    intro keys
    induction keys with
    | nil => exact fun h => h
    | cons k rest ih => exact fun h => ih (h.flushIfUp hblind k)
  unfold Node.flushPair
  rw [h.linkKeys]
  exact hkeys _ h

theorem authenticate (pair : DomainPair) (k : SessionKey) :
    (n.authenticate pair k).Alike R (n'.authenticate pair k) :=
  (h.trust pair k).flushPair hblind pair

theorem authenticateByStream (pair : DomainPair) (id : String) :
    AlikeResult R (n.authenticateByStream pair id) (n'.authenticateByStream pair id) := by
  unfold Node.authenticateByStream
  rw [h.incomingByStream?]
  split
  · exact .intro _ (h.authenticate hblind pair _)
  · exact .intro _ h

theorem carriers (pair : DomainPair) : n'.carriers pair = n.carriers pair := by
  unfold Node.carriers
  rw [h.outgoingKeys]
  congr 1
  funext k
  rw [h.view Session.isRelay fun _ _ => rfl, h.isOpen hblind]

theorem usableOutgoing? (pair : DomainPair) :
    n'.usableOutgoing? pair = n.usableOutgoing? pair := by
  have htrusted : (fun k => (n'.session k).isTrustedFor pair) =
      fun k => (n.session k).isTrustedFor pair :=
    funext (h.view (·.isTrustedFor pair) fun _ _ => rfl)
  rw [Node.usableOutgoing?, h.carriers hblind, htrusted, Node.usableOutgoing?]

theorem routableLink? (pair : DomainPair) : n'.routableLink? pair = n.routableLink? pair := by
  unfold Node.routableLink?
  rw [h.outgoingKeys]
  congr 1
  funext k
  rw [h.view (·.isTrustedFor pair) fun _ _ => rfl, h.isOpen hblind]

end Links

section Connections

include h

theorem accept (conn : ConnId) (address : String) :
    AlikeResult R (n.accept conn address) (n'.accept conn address) := by
  unfold Node.accept
  simp only [h.length_sessions, h.nextIdentifier]
  exact .intro _ ((h.addSession _).register conn _)

theorem tlsCompleted (conn : ConnId) (trust : CertTrust) :
    (n.tlsCompleted conn trust).Alike R (n'.tlsCompleted conn trust) := by
  unfold Node.tlsCompleted
  rw [h.find?]
  split
  · exact h.alter _ fun _ _ => rfl
  · exact h

theorem connectionClosed (conn : ConnId) :
    (n.connectionClosed conn).Alike R (n'.connectionClosed conn) := by
  unfold Node.connectionClosed
  rw [h.find?]
  split
  · rename_i k _
    have hclosed := (h.unregister conn).alter k (f := Session.beginClose) fun _ _ => rfl
    exact (hclosed.discard k).detach k
  · exact h

variable [Transport τ] (hblind : Transport.Blind R)

include hblind

theorem openConnection (pair : DomainPair) (relayFor : Option String) :
    AlikeResult R (n.openConnection pair relayFor) (n'.openConnection pair relayFor) := by
  obtain ⟨outcome, m, m', hr, hr', hm⟩ := (h.entry pair).exists_eq
  unfold Node.openConnection
  simp only [hr, hr']
  cases outcome with
  | error e => exact .intro _ hm
  | ok p =>
    obtain ⟨outcome, c, c', hr, hr', hc⟩ := (hm.connect hblind p).exists_eq
    simp only [hr, hr']
    cases outcome with
    | error e => exact .intro _ hc
    | ok conn =>
      have hadded := hc.addSession (.opened conn p relayFor c.nextIdentifier)
      have hopened := (hadded.addOutgoing p c.sessions.length).register conn c.sessions.length
      simp only [hc.length_sessions, hc.nextIdentifier, hblind.isOpen hopened.transport]
      refine .intro _ ?_
      split
      · exact hopened
      · exact hopened.connectionClosed conn

theorem verifier (pair : DomainPair) : AlikeResult R (n.verifier pair) (n'.verifier pair) := by
  unfold Node.verifier
  rw [h.usableOutgoing? hblind]
  split
  · exact .intro _ h
  · exact h.openConnection hblind pair _

theorem requestVerification (pair : DomainPair) (id key : String) :
    AlikeResult R (n.requestVerification pair id key) (n'.requestVerification pair id key) := by
  obtain ⟨outcome, m, m', hr, hr', hm⟩ := (h.entry pair).exists_eq
  unfold Node.requestVerification
  simp only [hr, hr']
  cases outcome with
  | error e => exact .intro _ hm
  | ok p =>
    obtain ⟨outcome, v, v', hr, hr', hv⟩ := (hm.verifier hblind p).exists_eq
    simp only [hr, hr']
    cases outcome with
    | error e => exact .intro _ hv
    | ok k =>
      have hnoted := (hv.alter k (f := (·.addVerifyRequest p.peer id)) fun _ _ => rfl).modify k
        fun hs => hs.enqueue (.refl (Stanza.verifyRequest p.own p.peer id key))
      simp only [hnoted.view Session.peerStreamId fun _ _ => rfl]
      split
      · obtain ⟨outcome, f, f', hr, hr', hf⟩ := (hnoted.flush hblind k).exists_eq
        simp only [hr, hr']
        exact .intro _ hf
      · exact .intro _ hnoted

theorem send (pair : DomainPair) (stanza : Element) :
    AlikeResult R (n.send pair stanza) (n'.send pair stanza) := by
  have hroute : n'.route? pair = n.route? pair := by
    rw [Node.route?, h.registry, h.routableLink? hblind, Node.route?]
  unfold Node.send
  rw [hroute]
  split
  · exact .intro _ h
  · rename_i k _
    obtain ⟨outcome, m, m', hr, hr', hm⟩ := (h.sendNow hblind k (.refl stanza)).exists_eq
    simp only [hr, hr']
    exact .intro _ hm

end Connections

section Watchdog

include h

theorem arm (timeout : Duration) (k : SessionKey) :
    (n.arm timeout k).Alike R (n'.arm timeout k) := by
  have halarms :
      ({ n with alarms := n.alarms ++ [⟨n.clock + timeout.milliseconds, k⟩] } : Node τ).Alike R
        { n' with alarms := n'.alarms ++ [⟨n'.clock + timeout.milliseconds, k⟩] } :=
    { h with alarms := by simp only [h.alarms, h.clock] }
  exact halarms.record (.refl _)

variable [Transport τ] (hblind : Transport.Blind R)

include hblind

theorem expire (k : SessionKey) : (n.expire k).Alike R (n'.expire k) := by
  unfold Node.expire
  rw [h.isReferenced, h.view Session.isAuthenticated fun _ _ => rfl, h.isOpen hblind]
  split
  · exact h.stop hblind k true
  · exact h

theorem advance (milliseconds : Nat) :
    (n.advance milliseconds).Alike R (n'.advance milliseconds) := by
  have hexpired : ∀ (alarms : List Alarm) {n n' : Node τ}, n.Alike R n' →
      (alarms.foldl (fun n alarm => n.expire alarm.session) n).Alike R
        (alarms.foldl (fun n alarm => n.expire alarm.session) n') := by
    intro alarms
    induction alarms with
    | nil => exact fun h => h
    | cons alarm rest ih => exact fun h => ih (h.expire hblind alarm.session)
  have hlater : (n.tick milliseconds).Alike R (n'.tick milliseconds) :=
    { h with clock := congrArg (· + milliseconds) h.clock }
  have hdue : (n'.tick milliseconds).dueAlarms = (n.tick milliseconds).dueAlarms := by
    rw [Node.dueAlarms, hlater.alarms, hlater.clock, Node.dueAlarms]
  unfold Node.advance Node.runDue
  rw [hdue]
  exact hexpired _ { hlater with alarms := by simp only [hlater.alarms, hlater.clock] }

end Watchdog

section Dialback

variable [Transport τ] (hblind : Transport.Blind R)

include h hblind

theorem presentKey (k : SessionKey) : (n.presentKey k).Alike R (n'.presentKey k) := by
  unfold Node.presentKey
  simp only [h.view Session.peerStreamId fun _ _ => rfl, h.view Session.pair fun _ _ => rfl,
    h.view Session.isRelay fun _ _ => rfl]
  cases (n.session k).peerStreamId with
  | none => exact h.failStream hblind k _ false
  | some id =>
    cases (n.session k).pair with
    | none => exact h.failStream hblind k _ false
    | some pair =>
      rcases h.directory.secretFor_cases pair.own with
        ⟨e, hnone, hnone'⟩ | ⟨secret, secret', hsome, hsome'⟩
      · simp only [hnone, hnone']
        exact h.failStream hblind k _ false
      · have hmethod := h.alter k (f := (·.setMethod dialbackMethod)) fun _ _ => rfl
        simp only [hsome, hsome']
        split
        · exact ((hmethod.setPhase k .awaitingVerify).flush hblind k).node
        · -- Only here does a secret count, and it only makes up the key.
          have hrequest := hmethod.alter k (f := (·.addKeyRequest pair.peer)) fun _ _ => rfl
          have hqueued := hrequest.modify k fun hs => hs.enqueue
            (.key pair.own pair.peer (Key.isDigest_derive pair.own pair.peer secret id)
              (Key.isDigest_derive pair.own pair.peer secret' id))
          exact ((hqueued.setPhase k .keySent).flush hblind k).node

theorem receiveFeatures (workaround : Bool) (k : SessionKey) (features : Element) :
    AlikeResult R (n.receiveFeatures workaround k features)
      (n'.receiveFeatures workaround k features) := by
  unfold Node.receiveFeatures
  simp only [h.view Session.method fun _ _ => rfl, h.view Session.pair fun _ _ => rfl,
    h.view Session.tlsActive fun _ _ => rfl, h.view Session.trust fun _ _ => rfl, h.skipsTls,
    h.directory.requiresTls_eq]
  split
  · exact .intro _ h
  · cases (n.session k).pair with
    | none => exact .intro _ h
    | some pair =>
      simp only
      split
      · exact .intro _ (h.setPhase k _)
      · split
        · obtain ⟨outcome, m, m', hr, hr', hm⟩ := (h.entry pair).exists_eq
          simp only [hr, hr']
          cases outcome with
          | error e => exact .intro _ (hm.failStream hblind k _ true)
          | ok p =>
            have hmethod := hm.alter k (f := (·.setMethod certificateMethod)) fun _ _ => rfl
            exact .intro _ (hmethod.authenticate hblind p k)
        · split
          · exact .intro _ (h.failStream hblind k _ true)
          · exact .intro _ (h.presentKey hblind k)

theorem reply (k : SessionKey) {e e' : Element} (he : Stanza.Alike e e') :
    (n.reply k e).Alike R (n'.reply k e') :=
  (h.sendNow hblind k he).node

theorem refuseKey (k : SessionKey) (pair : DomainPair) (condition : String) :
    (n.refuseKey k pair condition).Alike R (n'.refuseKey k pair condition) :=
  h.reply hblind k (.refl _)

theorem receiveKey (k : SessionKey) (pair : DomainPair) (stanza : Element) :
    (n.receiveKey k pair stanza).Alike R (n'.receiveKey k pair stanza) := by
  unfold Node.receiveKey
  simp only [h.view (·.pairOr pair) fun _ _ => rfl, h.view Session.tlsActive fun _ _ => rfl,
    h.view Session.streamId fun _ _ => rfl, h.skipsTls, h.directory.requiresTls_eq]
  split
  · exact h.refuseKey hblind k pair _
  · split
    · exact h.failStream hblind k _ false
    · obtain ⟨outcome, m, m', hr, hr', hm⟩ :=
        ((h.setPhase k .awaitingVerify).requestVerification hblind pair (n.session k).streamId
          (Text.trim (stanza.cdata.getD ""))).exists_eq
      simp only [hr, hr']
      cases outcome with
      | ok _ => exact hm
      | error e => exact hm.refuseKey hblind k pair _

theorem receiveVerdict (k : SessionKey) (pair : DomainPair) (verdict : Verdict) :
    (n.receiveVerdict k pair verdict).Alike R (n'.receiveVerdict k pair verdict) := by
  unfold Node.receiveVerdict
  rw [h.view (·.hasKeyRequest pair.peer) fun _ _ => rfl]
  cases verdict with
  | valid =>
    simp only
    split
    · exact (h.alter k (f := (·.dropKeyRequest pair.peer)) fun _ _ => rfl).authenticate hblind _ _
    · exact h
  | invalid => exact h.stop hblind k false
  | error => exact h.stop hblind k false

theorem answerVerify (k : SessionKey) (pair : DomainPair) (stanza : Element) :
    (n.answerVerify k pair stanza).Alike R (n'.answerVerify k pair stanza) := by
  unfold Node.answerVerify
  split
  · exact h.failStream hblind k _ false
  · -- What is found out about the key goes into the answer and nowhere else.
    exact h.reply hblind k (.answer pair.own pair.peer _ _ _)

theorem relayVerdict (k : SessionKey) (pair : DomainPair) (stanza : Element) (verdict : Verdict) :
    (n.relayVerdict k pair stanza verdict).Alike R (n'.relayVerdict k pair stanza verdict) := by
  unfold Node.relayVerdict
  cases stanza.attr? "id" with
  | none => exact h
  | some id =>
    have hdropped := h.alter k (f := (·.dropVerifyRequest pair.peer id)) fun _ _ => rfl
    simp only [h.view (·.hasVerifyRequest pair.peer id) fun _ _ => rfl]
    split
    · exact h
    · by_cases hvalid : verdict = .valid
      · obtain ⟨target, m, m', hr, hr', hm⟩ :=
          (hdropped.authenticateByStream hblind pair id).exists_eq
        simp only [hvalid, decide_true, if_true, hr, hr']
        cases target with
        | none => exact hm
        | some target => exact hm.reply hblind target (.refl _)
      · simp only [hvalid, decide_false, Bool.false_eq_true, if_false, hdropped.incomingByStream?]
        split
        · exact hdropped
        · exact hdropped.reply hblind _ (.refl _)

theorem receiveVerifyReply (k : SessionKey) (pair : DomainPair) (stanza : Element)
    (verdict : Verdict) : (n.receiveVerifyReply k pair stanza verdict).Alike R
      (n'.receiveVerifyReply k pair stanza verdict) := by
  have hrelayed := h.relayVerdict hblind k pair stanza verdict
  unfold Node.receiveVerifyReply
  simp only [hrelayed.view Session.isRelay fun _ _ => rfl]
  split
  · exact hrelayed.stop hblind k false
  · exact hrelayed

theorem receiveDialback (k : SessionKey) (kind : DialbackKind) (stanza : Element) :
    (n.receiveDialback k kind stanza).Alike R (n'.receiveDialback k kind stanza) := by
  unfold Node.receiveDialback
  split
  · rename_i recipient sender _ _
    have hentry := (h.alter k (f := (·.adoptPair (DomainPair.ofAddresses recipient sender)))
      fun _ _ => rfl).entry (DomainPair.ofAddresses recipient sender)
    obtain ⟨outcome, m, m', hr, hr', hm⟩ := hentry.exists_eq
    simp only [hr, hr']
    cases outcome with
    | error e => exact hm.failStream hblind k _ false
    | ok p =>
      have hjoined : (if (m.session k).role = .inbound then m.addIncoming p k else m).Alike R
          (if (m.session k).role = .inbound then m'.addIncoming p k else m') := by
        split
        · exact hm.addIncoming p k
        · exact hm
      simp only [hm.view Session.role fun _ _ => rfl]
      unfold Node.dispatchDialback
      split
      · exact hjoined.receiveKey hblind k _ stanza
      · exact hjoined.receiveVerdict hblind k p _
      · exact hjoined.answerVerify hblind k _ stanza
      · exact hjoined.receiveVerifyReply hblind k p stanza _
  · exact h.failStream hblind k _ false

end Dialback

section Streams

variable [Transport τ] (hblind : Transport.Blind R) (settings : Settings)

include h

theorem serviceStarted (conn : ConnId) :
    AlikeResult R (n.serviceStarted (Chain.standard settings) conn)
      (n'.serviceStarted (Chain.standard settings) conn) := by
  unfold Node.serviceStarted
  rw [h.find?, standard_eq]
  split
  · exact .intro _ (h.arm settings.authTimeout _)
  · exact .intro _ h

/-- The features of a session do not depend on secrets. -/
theorem features (k : SessionKey) : (Chain.standard settings).features n' k =
    (Chain.standard settings).features n k := by
  simp only [standard_eq, Chain.features, List.flatMap_cons, List.flatMap_nil,
    Processor.streamError, Processor.dialback, h.view Session.role fun _ _ => rfl,
    h.view Session.isAuthenticated fun _ _ => rfl]

theorem answerHeader (k : SessionKey) (header : StreamHeader) :
    (n'.answerHeader (Chain.standard settings) k header).1 =
        (n.answerHeader (Chain.standard settings) k header).1 ∧
      AlikeResult R (n.answerHeader (Chain.standard settings) k header).2
        (n'.answerHeader (Chain.standard settings) k header).2 := by
  have hpair : n'.headerPair header = n.headerPair header := by
    rw [Node.headerPair, h.directory.isServed_eq, Node.headerPair]
  unfold Node.answerHeader
  rw [hpair]
  simp only [h.view Session.streamId fun _ _ => rfl]
  split
  · exact ⟨rfl, .intro _ h⟩
  · rename_i named _
    cases named with
    | none =>
      simp only [h.features]
      split <;> exact ⟨rfl, .intro _ h⟩
    | some pair =>
      have hnamed := h.alter k (f := (·.setPair pair)) fun _ _ => rfl
      simp only [hnamed.features]
      split <;> exact ⟨rfl, .intro _ hnamed⟩

include hblind

theorem chain_streamOpened (k : SessionKey) (header : StreamHeader) :
    AlikeResult R ((Chain.standard settings).streamOpened n k header)
      ((Chain.standard settings).streamOpened n' k header) := by
  rw [standard_eq]
  simp only [Chain.streamOpened, Processor.streamError, Processor.dialback,
    h.view Session.role fun _ _ => rfl]
  cases (n.session k).role with
  | inbound => exact .intro _ (h.setPhase k _)
  | outbound =>
    simp only
    split
    · exact .intro _ (h.setPhase k _)
    · exact .intro _ (h.presentKey hblind k)

theorem streamOpened (conn : ConnId) (header : StreamHeader) :
    AlikeResult R (n.streamOpened (Chain.standard settings) conn header)
      (n'.streamOpened (Chain.standard settings) conn header) := by
  unfold Node.streamOpened
  rw [h.find?]
  cases n.find? conn with
  | none => exact .intro _ h
  | some k =>
    simp only [h.view Session.role fun _ _ => rfl]
    cases (n.session k).role with
    | inbound =>
      obtain ⟨htext, hanswer⟩ := h.answerHeader settings k header
      simp only
      revert htext hanswer
      rcases n.answerHeader (Chain.standard settings) k header with ⟨text, r⟩
      rcases n'.answerHeader (Chain.standard settings) k header with ⟨text', r'⟩
      rintro (rfl : text' = text) ⟨error, hm⟩
      cases error with
      | some e => exact .intro _ (hm.stop hblind k false)
      | none =>
        obtain ⟨more, o, o', hr, hr', ho⟩ :=
          (hm.chain_streamOpened hblind settings k header).exists_eq
        simp only [hr, hr']
        exact .intro _ ho
    | outbound =>
      cases header.id with
      | none =>
        obtain ⟨text, o, o', hr, hr', ho⟩ :=
          (h.chain_streamOpened hblind settings k header).exists_eq
        simp only [hr, hr']
        exact .intro _ ho
      | some id =>
        obtain ⟨text, o, o', hr, hr', ho⟩ := ((h.alter k (f := (·.setPeerStreamId id))
          fun _ _ => rfl).chain_streamOpened hblind settings k header).exists_eq
        simp only [hr, hr']
        exact .intro _ ho

theorem receive (conn : ConnId) (stanza : Element) :
    AlikeResult R (n.receive (Chain.standard settings) conn stanza)
      (n'.receive (Chain.standard settings) conn stanza) := by
  unfold Node.receive
  rw [h.find?]
  cases n.find? conn with
  | none => exact .intro _ h
  | some k =>
    have hrole := h.view Session.role (fun _ _ => rfl) k
    simp only [standard_eq, Chain.process, Processor.streamError, Processor.dialback]
    by_cases herror : Stanza.isStreamError stanza
    · simp only [herror, if_true]
      exact .intro _ (h.stop hblind k false)
    · simp only [herror, Bool.false_eq_true, if_false]
      cases DialbackKind.of? stanza with
      | some kind => exact .intro _ (h.receiveDialback hblind k kind stanza)
      | none =>
        by_cases hfeatures :
            (decide ((n.session k).role = .outbound) && Stanza.isStreamFeatures stanza) = true
        · obtain ⟨consumed, m, m', hr, hr', hm⟩ :=
            (h.receiveFeatures hblind settings.workaround k stanza).exists_eq
          simp only [hrole, hfeatures, if_true, hr, hr']
          cases consumed <;> exact .intro _ hm
        · simp only [hrole, hfeatures, Bool.false_eq_true, if_false]
          exact .intro _ h

end Streams

/-- Whatever happens to nodes that are alike, they are alike afterwards. -/
theorem step [Transport τ] (h : n.Alike R n') (hblind : Transport.Blind R) (settings : Settings)
    (event : Event) :
    (n.step (Chain.standard settings) event).Alike R
      (n'.step (Chain.standard settings) event) := by
  cases event with
  | accept conn address => exact (h.accept conn address).node
  | openConnection pair relayFor => exact (h.openConnection hblind pair relayFor).node
  | serviceStarted conn => exact (h.serviceStarted settings conn).node
  | streamOpened conn header => exact (h.streamOpened hblind settings conn header).node
  | receive conn stanza => exact (h.receive hblind settings conn stanza).node
  | tlsCompleted conn trust => exact h.tlsCompleted conn trust
  | connectionClosed conn => exact h.connectionClosed conn
  | send pair stanza => exact (h.send hblind pair stanza).node
  | requestVerification pair id key => exact (h.requestVerification hblind pair id key).node
  | advance milliseconds => exact h.advance hblind milliseconds

end Node.Alike

/-- The same happens, or transports that are alike change alike on their own. -/
inductive Occurrence.Alike {τ : Type} (R : τ → τ → Prop) : Occurrence τ → Occurrence τ → Prop
  | event (event : Event) : Alike R (.event event) (.event event)
  | drift {t t' : τ} (h : R t t') (pinned : List SessionKey) :
      Alike R (.drift t pinned) (.drift t' pinned)

/-- Two setups that differ in the values of secrets at most. -/
structure Setup.Alike {τ : Type} (R : τ → τ → Prop) (setup setup' : Setup τ) : Prop where
  settings : setup'.settings = setup.settings
  directory : setup.directory.Alike setup'.directory
  transport : R setup.transport setup'.transport
  issued : setup'.issued = setup.issued
  identify : setup'.identify = setup.identify

/-- Other secrets for the same domains make a directory that is alike. -/
theorem Directory.alike_exact (domains : List DomainConfig) (other : String → String) :
    (exact domains).Alike
      (exact (domains.map fun d => { d with secret := d.secret.map other })) := by
  have hlisted : ∀ domain,
      lastListed? (domains.map fun d => { d with secret := d.secret.map other }) domain =
        (lastListed? domains domain).map fun d => { d with secret := d.secret.map other } := by
    intro domain
    rw [lastListed?, ← List.map_reverse, List.find?_map]
    rfl
  refine ⟨fun domain => ?_, fun domain => ?_, fun domain => ?_⟩ <;>
    simp only [exact, hlisted] <;> cases lastListed? domains domain <;> simp

namespace Setup

variable {τ : Type} [Transport τ] {R : τ → τ → Prop}

omit [Transport τ] in
theorem alike_start {setup setup' : Setup τ} (h : setup.Alike R setup') :
    setup.start.Alike R setup'.start where
  settings := by rw [start, start, h.settings]; rfl
  directory := h.directory
  transport := h.transport
  identify := h.identify
  issued := h.issued
  clock := rfl
  alarms := rfl
  registry := rfl
  sessions := .nil
  live := rfl
  pinned := rfl
  log := .nil

/-- Secrets show in nothing but keys and the answers about keys. Two nodes are set up alike, with
other secrets for the same domains, on transports that do not look into what they carry, and the
same happens to both. After every step they have asked the same of their transports in the same
order, and are in the same state, but for the keys that they present, which are digests on both
sides, and for what they answer about keys. -/
theorem secrets_show_only_in_keys_and_answers (hblind : Transport.Blind R) {setup setup' : Setup τ}
    (hsetup : setup.Alike R setup') {past past' : List (Occurrence τ)}
    (hpast : List.Forall₂ (Occurrence.Alike R) past past') (i : ℕ) :
    (setup.after (past.take i)).Alike R (setup'.after (past'.take i)) := by
  have hrun : ∀ {past past' : List (Occurrence τ)},
      List.Forall₂ (Occurrence.Alike R) past past' → ∀ {n n' : Node τ}, n.Alike R n' →
        (past.foldl setup.next n).Alike R (past'.foldl setup'.next n') := by
    intro past past' hpast
    induction hpast with
    | nil => exact fun h => h
    | cons ho _ ih =>
      intro n n' h
      refine ih ?_
      cases ho with
      | event event =>
        rw [next_event, next_event, chain, chain, hsetup.settings]
        exact h.step hblind setup.settings event
      | drift ht pinned => exact { h with transport := ht, pinned := rfl }
  exact hrun (List.forall₂_take i hpast) (alike_start hsetup)

/-- With another secret the key that is presented is another one, and all else is the same. -/
theorem secrets_show_only_in_keys_and_answers_of_two_secrets :
    let rekeyed := { served with
      directory := .exact [{ name := "b.example", secret := some "another" }] }
    let past := keySent ⟨"b.example", "a.example"⟩
    (served.after past).log ≠ (rekeyed.after past).log ∧
      (served.after past).Alike (fun t t' => t = t') (rekeyed.after past) := by
  intro rekeyed past
  refine ⟨?_, ?_⟩
  · rw [after_eq_foldl, after_eq_foldl]
    decide +kernel
  · have hsetup : served.Alike (fun t t' => t = t') rekeyed :=
      { settings := rfl
        directory := Directory.alike_exact _ fun _ => "another"
        transport := rfl
        issued := rfl
        identify := rfl }
    have hsame : List.Forall₂ (Occurrence.Alike fun t t' : Simulated => t = t') past past :=
      .cons (.event _) (.cons (.event _) .nil)
    exact secrets_show_only_in_keys_and_answers Simulated.blind hsetup hsame 2

end Setup

end Federation
