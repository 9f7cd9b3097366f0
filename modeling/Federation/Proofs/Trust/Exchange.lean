import Federation.Proofs.Dialback.Key
import Federation.Proofs.Node.Asking
import Federation.Proofs.Node.Coherence
import Federation.Proofs.Node.Greeting
import Federation.Proofs.Node.Receipt
import Federation.Proofs.Node.Upkeep
import Federation.Proofs.Trust.Closing
import Federation.Proofs.Trust.OwnKeys
import Federation.Proofs.Trust.PresentedKeys

/-!
The single steps of a dialback on which nothing stands in the way, each as an equation.
-/

namespace Federation

namespace Node

variable {τ : Type}

/-- What is heard on a connection joins it to a pair as an incoming link at most. -/
theorem outgoingKeys_takeIn (n : Node τ) (k : SessionKey) (spelled p q : DomainPair) :
    (n.takeIn k spelled p).outgoingKeys q = n.outgoingKeys q := by
  have hadopted := outgoingKeys_withEntry (n.alter k (·.adoptPair spelled)) p q
  have hjoined : ∀ (m : Node τ), (m.addIncoming p k).outgoingKeys q = m.outgoingKeys q := by
    intro m
    unfold outgoingKeys
    rw [registry_addIncoming]
    by_cases hq : q = p
    · subst hq
      rw [Registry.get?_alter_self (f := (·.addIncoming (m.link k))) fun _ => rfl]
      cases m.registry.get? q <;> rfl
    · rw [Registry.get?_alter_of_ne (f := (·.addIncoming (m.link k))) (fun _ => rfl) _ hq]
  unfold takeIn
  simp only
  split
  · exact (hjoined _).trans hadopted
  · exact hadopted

section Welcome

variable (n : Node τ) (conn : ConnId) (address : String) (p : DomainPair)

def welcome : Node τ :=
  ((n.accept conn address).2.alter n.sessions.length (·.setPair p)).alter n.sessions.length
    (·.setPhase .awaitingKey)

theorem session_welcome (j : SessionKey) :
    (n.welcome conn address p).session j =
      if j = n.sessions.length then
        { Session.accepted conn address n.nextIdentifier with
          pair := some p, phase := .awaitingKey }
      else n.session j := by
  have haccept : ∀ i, (n.accept conn address).2.session i =
      if i = n.sessions.length then Session.accepted conn address n.nextIdentifier
      else n.session i := fun i => session_addSession n _ i
  have hlength : n.sessions.length < (n.accept conn address).2.sessions.length := by
    simp [accept, addSession, register]
  rw [welcome, session_alter, session_alter, length_sessions_alter, haccept]
  by_cases hj : j = n.sessions.length
  · rw [if_pos ⟨hj, hlength⟩, if_pos ⟨hj, hlength⟩, if_pos hj, if_pos hj]
    rfl
  · rw [if_neg fun h => hj h.1, if_neg fun h => hj h.1, if_neg hj, if_neg hj]

theorem length_sessions_welcome :
    (n.welcome conn address p).sessions.length = n.sessions.length + 1 := by
  simp [welcome, accept, addSession, register]

theorem find?_welcome_self : (n.welcome conn address p).find? conn = some n.sessions.length :=
  find?_register_self _ _ _

end Welcome

variable [Transport τ]

/-- Which links may carry a question depends on a few things about them only. -/
theorem carriers_congr {n m : Node τ} {p : DomainPair} (hkeys : m.outgoingKeys p = n.outgoingKeys p)
    (hsessions : ∀ j ∈ n.outgoingKeys p, (m.session j).isRelay = (n.session j).isRelay ∧
      (m.session j).isClosing = (n.session j).isClosing ∧ (m.session j).conn = (n.session j).conn)
    (htransport : m.transport = n.transport) : m.carriers p = n.carriers p := by
  unfold carriers
  rw [hkeys]
  refine List.filter_congr fun j hj => ?_
  obtain ⟨hrelay, hclosing, hconn⟩ := hsessions j hj
  rw [isOpen, isOpen, hrelay, hclosing, hconn, htransport]

/-- The header of a peer that names a valid pair and no version is answered with a header, which
announces our stream. -/
theorem streamOpened_of_canonical {n : Node τ} {conn : ConnId} {k : SessionKey} {p : DomainPair}
    (settings : Settings) (hfind : n.find? conn = some k) (hrole : (n.session k).role = .inbound)
    (hp : p.IsCanonical n.directory.isServed) :
    n.streamOpened (Chain.standard settings) conn
        { sender := some p.peer, recipient := some p.own } =
      (some (Stanza.streamHeader (n.session k).streamId (some p.own) (some p.peer) none),
        (n.alter k (·.setPair p)).alter k (·.setPhase .awaitingKey)) := by
  have hchecked : DomainPair.checked p.own p.peer n.directory.isServed = .ok p := hp
  obtain ⟨-, -, hserved, -⟩ := DomainPair.checked_eq_ok_iff.mp hchecked
  have hnamed : n.headerPair { sender := some p.peer, recipient := some p.own } = .ok (some p) := by
    rw [headerPair_of_checked hchecked rfl rfl, hp.lower_own, if_pos hserved]
  rw [streamOpened_of_named settings hrole hfind hnamed]
  simp [ownHeader, offer, taking, hp.part_own, hp.part_peer]

theorem step_accept_header {n : Node τ} {p : DomainPair} (settings : Settings) (conn : ConnId)
    (address : String) (hp : p.IsCanonical n.directory.isServed) :
    (n.step (Chain.standard settings) (.accept conn address)).step (Chain.standard settings)
        (.streamOpened conn { sender := some p.peer, recipient := some p.own }) =
      n.welcome conn address p := by
  have hsession : (n.accept conn address).2.session n.sessions.length =
      Session.accepted conn address n.nextIdentifier := session_addSession_self n _
  have hanswer := streamOpened_of_canonical (n := (n.accept conn address).2) settings
    (find?_register_self _ conn n.sessions.length) (by rw [hsession]; rfl) (p := p) hp
  exact congrArg Prod.snd hanswer

section Dial

variable (n : Node τ) (p : DomainPair) (relayFor : Option String) (conn : ConnId)

def dial : Node τ :=
  ((n.withEntry p).connect p).2.establish p relayFor conn

theorem session_dial (j : SessionKey) :
    (n.dial p relayFor conn).session j =
      if j = n.sessions.length then (Session.opened conn p relayFor n.nextIdentifier).join p
      else n.session j :=
  session_establish _ p relayFor conn j

theorem length_sessions_dial : (n.dial p relayFor conn).sessions.length = n.sessions.length + 1 :=
  length_sessions_establish _ p relayFor conn

theorem find?_dial_self : (n.dial p relayFor conn).find? conn = some n.sessions.length :=
  find?_register_self _ _ _

theorem transport_dial :
    (n.dial p relayFor conn).transport = (Transport.connect n.transport p).2 := rfl

theorem log_dial : (n.dial p relayFor conn).log =
    n.log ++ [.connect p (n.connect p).1.toOption] :=
  log_connect _ p

variable {n p conn}

section Outcomes

variable (hn : n.HasCanonicalEntries) {pair : DomainPair}
  (hcheck : DomainPair.checked pair.own pair.peer n.directory.isServed = .ok p)

include hn hcheck

/-- The transport refuses the connection. -/
theorem openConnection_of_refused {e : TransportError}
    (hrefused : (Transport.connect n.transport p).1 = .error e) :
    n.openConnection pair relayFor = (.error (.transport e), ((n.withEntry p).connect p).2) := by
  rcases openConnection_outcomes hn hcheck relayFor with ⟨e', he', heq⟩ | ⟨conn, hconn, -⟩
  · rw [heq, Except.error.inj (he'.symm.trans hrefused)]
  · cases hconn.symm.trans hrefused

variable (hconn : (Transport.connect n.transport p).1 = .ok conn)

include hconn

theorem openConnection_of_isOpen
    (hopen : Transport.isOpen (Transport.connect n.transport p).2 conn) :
    n.openConnection pair relayFor = (.ok n.sessions.length, n.dial p relayFor conn) := by
  rcases openConnection_outcomes hn hcheck relayFor with ⟨e, he, -⟩ | ⟨other, hother, houtcome⟩
  · cases he.symm.trans hconn
  · obtain rfl : other = conn := Except.ok.inj (hother.symm.trans hconn)
    rcases houtcome with ⟨-, heq⟩ | ⟨hdead, -⟩
    · exact heq
    · exact absurd hopen (Bool.eq_false_iff.mp hdead)

/-- A connection that is dead from the start is closed at once. -/
theorem openConnection_of_dead
    (hdead : Transport.isOpen (Transport.connect n.transport p).2 conn = false) :
    n.openConnection pair relayFor =
      (.ok n.sessions.length, (n.dial p relayFor conn).connectionClosed conn) := by
  rcases openConnection_outcomes hn hcheck relayFor with ⟨e, he, -⟩ | ⟨other, hother, houtcome⟩
  · cases he.symm.trans hconn
  · obtain rfl : other = conn := Except.ok.inj (hother.symm.trans hconn)
    rcases houtcome with ⟨hopen, -⟩ | ⟨-, heq⟩
    · exact absurd hopen (Bool.eq_false_iff.mp hdead)
    · exact heq

end Outcomes

/-- What becomes of a question whose carrier is known. -/
theorem requestVerification_of_verifier (id key : String) (hn : n.HasCanonicalEntries)
    (hp : p.IsCanonical n.directory.isServed) {m : Node τ} {r : SessionKey}
    (hverifier : (n.withEntry p).verifier p = (.ok r, m)) :
    n.requestVerification p id key =
      if (m.session r).peerStreamId.isSome then
        (((((m.noteQuestion r p id key).flush r).1.map fun _ => ()).mapError .transport),
          ((m.noteQuestion r p id key).flush r).2)
      else (.ok (), m.noteQuestion r p id key) := by
  have hcheck : DomainPair.checked p.own p.peer n.directory.isServed = .ok p := hp
  have hid : ((m.noteQuestion r p id key).session r).peerStreamId = (m.session r).peerStreamId :=
    view_session_noteQuestion Session.peerStreamId (fun _ => rfl) (fun _ _ => rfl) key r
  unfold requestVerification
  rw [entry_eq hn, hcheck, ← hid]
  simp only [hverifier]
  rfl

/-- A question goes over a new relay if there is no open link to ask over, and waits there. -/
theorem requestVerification_over_relay (hn : n.HasCanonicalEntries) {relay : ConnId}
    (hp : p.IsCanonical n.directory.isServed) (hnone : n.usableOutgoing? p = none)
    (hconn : (Transport.connect n.transport p).1 = .ok relay)
    (hopen : Transport.isOpen (Transport.connect n.transport p).2 relay) (id key : String) :
    n.requestVerification p id key =
      (.ok (), (n.dial p (some p.peer) relay).noteQuestion n.sessions.length p id key) := by
  have hverifier := (verifier_of_none hn hp hnone).trans
    (openConnection_of_isOpen (some p.peer) hn hp hconn hopen)
  have hunannounced : ((n.dial p (some p.peer) relay).session n.sessions.length).peerStreamId =
      none := by
    rw [session_dial, if_pos rfl]
    rfl
  rw [requestVerification_of_verifier id key hn hp hverifier, hunannounced]
  rfl

end Dial

def grant (n : Node τ) (r : SessionKey) (note : Session → Session) (p : DomainPair)
    (k : SessionKey) : Node τ :=
  ((n.takeIn r p p).alter r note).authenticate p k

/-- What a question is answered with depends on the key alone. -/
theorem answerVerify_eq {stanza : Element} {id : String} (hid : stanza.attr? "id" = some id)
    (n : Node τ) (k : SessionKey) (pair : DomainPair) :
    n.answerVerify k pair stanza = n.reply k (Stanza.verifyReply pair.own pair.peer id
      (n.directory.acceptsKey pair id (stanza.cdata.getD ""))) := by
  simp only [answerVerify, hid]
  rfl

theorem view_session_grant {α : Type} (view : Session → α) {p : DomainPair}
    (hadopt : ∀ s, view (s.adoptPair p) = view s) (hjoin : ∀ s, view (s.join p) = view s)
    (hmark : ∀ s, view (s.markTrusted p) = view s) (hqueue : ∀ s, view s.clearQueue = view s)
    {f : Session → Session} (hf : ∀ s, view (f s) = view s) (n : Node τ) (r k j : SessionKey) :
    view ((n.grant r f p k).session j) = view (n.session j) :=
  (view_session_authenticate view hqueue hjoin hmark _ k j).trans
    (view_session_takeIn_alter n r p p view hadopt hjoin hf j)

@[simp] theorem length_sessions_grant (n : Node τ) (r : SessionKey) (note : Session → Session)
    (p : DomainPair) (k : SessionKey) :
    (n.grant r note p k).sessions.length = n.sessions.length := by
  rw [grant, length_sessions_authenticate, length_sessions_alter, length_sessions_takeIn]

section Hear

variable {n : Node τ} (hn : n.WellFormed) (settings : Settings) {conn : ConnId} {k : SessionKey}
  {p : DomainPair} (hfind : n.find? conn = some k) (hp : p.IsCanonical n.directory.isServed)

include hn hfind hp

/-- A question about a key is answered, and nothing else comes of it. -/
theorem step_receive_verifyRequest (id text : String) :
    n.step (Chain.standard settings) (.receive conn
        (Stanza.verifyRequest p.peer p.own id text)) =
      (n.takeIn k p p).reply k
        (Stanza.verifyReply p.own p.peer id (n.directory.acceptsKey p id text)) := by
  have hto : (Stanza.verifyRequest p.peer p.own id text).attr? "to" = some p.own := by
    simp [Stanza.attr?_verifyRequest]
  have hfrom : (Stanza.verifyRequest p.peer p.own id text).attr? "from" = some p.peer := by
    simp [Stanza.attr?_verifyRequest]
  have hid : (Stanza.verifyRequest p.peer p.own id text).attr? "id" = some id := by
    simp [Stanza.attr?_verifyRequest]
  rw [step_receive_question hn settings hfind (Stanza.of?_verifyRequest _ _ _ _)
    (Stanza.type_verifyRequest _ _ _ _) (Directory.pairNamed?_of_attr hp hto hfrom),
    hp.spelled_eq hto hfrom, answerVerify_eq hid, directory_takeIn]
  rfl

/-- A right key is found right. -/
theorem step_receive_right_key {id secret : String}
    (hsecret : n.directory.secretFor p.own = .ok secret) :
    n.step (Chain.standard settings) (.receive conn
        (Stanza.verifyRequest p.peer p.own id (Key.derive p.own p.peer secret id))) =
      (n.takeIn k p p).reply k (Stanza.verifyReply p.own p.peer id true) := by
  have haccepts : n.directory.acceptsKey p id (Key.derive p.own p.peer secret id) :=
    Directory.acceptsKey_iff.mpr ⟨secret, hsecret, Key.trim_derive _ _ _ _⟩
  rw [step_receive_verifyRequest hn settings hfind hp, haccepts]

/-- The verdict on a key that is outstanding makes the session trusted. -/
theorem step_receive_consent (hrequest : (n.session k).hasKeyRequest p.peer) :
    n.step (Chain.standard settings) (.receive conn
        (Stanza.resultReply p.peer p.own .valid none)) =
      n.grant k (·.dropKeyRequest p.peer) p k := by
  have hto : (Stanza.resultReply p.peer p.own .valid none).attr? "to" = some p.own := by
    simp [Stanza.resultReply]
  have hfrom : (Stanza.resultReply p.peer p.own .valid none).attr? "from" = some p.peer := by
    simp [Stanza.resultReply]
  rw [step_receive_valid hn settings hfind (Stanza.of?_resultReply _ _ _ _)
    (Stanza.type_resultReply _ _ _ _) (Directory.pairNamed?_of_attr hp hto hfrom) hrequest,
    hp.spelled_eq hto hfrom]
  rfl

/-- The answer that finds a key right makes the session trusted on which the key was presented, and
is passed on to it. The relay that asked is closed. -/
theorem step_receive_confirmation {j : SessionKey} {id : String}
    (hrole : (n.session k).role = .outbound) (hrelay : (n.session k).isRelay)
    (hrequest : (n.session k).hasVerifyRequest p.peer id)
    (htarget : n.incomingByStream? p id = some j) :
    n.step (Chain.standard settings) (.receive conn (Stanza.verifyReply p.peer p.own id true)) =
      ((n.grant k (·.dropVerifyRequest p.peer id) p j).reply j
        (Stanza.resultReply p.own p.peer .valid none)).stop k false := by
  have hto : (Stanza.verifyReply p.peer p.own id true).attr? "to" = some p.own := by
    simp [Stanza.attr?_verifyReply]
  have hfrom : (Stanza.verifyReply p.peer p.own id true).attr? "from" = some p.peer := by
    simp [Stanza.attr?_verifyReply]
  have hid : (Stanza.verifyReply p.peer p.own id true).attr? "id" = some id := by
    simp [Stanza.attr?_verifyReply]
  have hrequest' : ((n.takeIn k p p).session k).hasVerifyRequest p.peer id :=
    (hasVerifyRequest_takeIn n k p p p.peer id k).trans hrequest
  have htarget' : (n.takeIn k p p).incomingByStream? p id = some j :=
    (incomingByStream?_takeIn hrole p p id).trans htarget
  rw [step_receive_answer hn settings hfind (Stanza.of?_verifyReply _ _ _ _)
    (Stanza.type_verifyReply _ _ _ _) (Directory.pairNamed?_of_attr hp hto hfrom),
    hp.spelled_eq hto hfrom, receiveVerifyReply, relayVerdict_of_target hid hrequest' htarget']
  refine if_pos ?_
  exact (view_session_grant Session.isRelay (fun _ => rfl) (fun _ => rfl) (fun _ => rfl)
    (fun _ => rfl) (f := (·.dropVerifyRequest p.peer id)) (fun _ => rfl) n k j k).trans hrelay

/-- A key is asked about over a new relay if there is no open link to ask over. -/
theorem step_receive_key_over_relay {key : String} {relay : ConnId}
    (hpair : (n.session k).pair = some p) (hlax : n.directory.requiresTls p.own = false)
    (hkey : Text.trim key = key) (hblank : key ≠ "") (hnone : n.carriers p = [])
    (hconn : (Transport.connect n.transport p).1 = .ok relay)
    (hopen : Transport.isOpen (Transport.connect n.transport p).2 relay) :
    n.step (Chain.standard settings) (.receive conn (Stanza.key p.peer p.own key)) =
      (((n.takeIn k p p).alter k (·.setPhase .awaitingVerify)).dial p (some p.peer)
        relay).noteQuestion n.sessions.length p (n.session k).streamId key := by
  have hto : (Stanza.key p.peer p.own key).attr? "to" = some p.own := by simp [Stanza.key]
  have hfrom : (Stanza.key p.peer p.own key).attr? "from" = some p.peer := by simp [Stanza.key]
  have hnamed := Directory.pairNamed?_of_attr hp hto hfrom
  have hpresented : Text.trim ((Stanza.key p.peer p.own key).cdata.getD "") = key := hkey
  let taken := n.takeIn k p p
  have htransport : (taken.alter k (·.setPhase .awaitingVerify)).transport = n.transport :=
    transport_takeIn n k p p
  have hview : ∀ {α : Type} (view : Session → α), (∀ s, view (s.adoptPair p) = view s) →
      (∀ s, view (s.join p) = view s) → view (taken.session k) = view (n.session k) :=
    fun view hadopt hjoin => view_session_takeIn n k p p view hadopt hjoin k
  have hallowed : ¬ taken.demandsTls ((taken.session k).pairOr p) := by
    rw [pairOr_takeIn, demandsTls_takeIn, Session.pairOr, hpair]
    simp [demandsTls, hlax]
  have hlive : n.find? (n.session k).conn = some k := by rw [(hn.live conn k hfind).2, hfind]
  have htaken : taken.HasCanonicalEntries := Moves.hasCanonicalEntries
    (moves_takeIn hlive (by rw [Stanza.of?_key]; rfl) hnamed p) hn.entries
  let awaiting := taken.alter k (·.setPhase .awaitingVerify)
  have hcarriers : awaiting.carriers p = [] := by
    rw [← hnone]
    refine carriers_congr (outgoingKeys_takeIn n k p p p) (fun j _ => ?_) htransport
    have hkept : ∀ {α : Type} (view : Session → α), (∀ s, view (s.adoptPair p) = view s) →
        (∀ s, view (s.join p) = view s) →
        (∀ (s : Session) (phase : Phase), view { s with phase := phase } = view s) →
        view (awaiting.session j) = view (n.session j) := fun view hadopt hjoin hphase =>
      view_session_takeIn_alter n k p p view hadopt hjoin (Session.view_setPhase view hphase _) j
    exact ⟨hkept Session.isRelay (fun _ => rfl) (fun _ => rfl) fun _ _ => rfl,
      hkept Session.isClosing (fun _ => rfl) (fun _ => rfl) fun _ _ => rfl,
      hkept Session.conn (fun _ => rfl) (fun _ => rfl) fun _ _ => rfl⟩
  have hunusable : awaiting.usableOutgoing? p = none := by
    rw [usableOutgoing?, hcarriers]
    rfl
  have hasked := requestVerification_over_relay (n := awaiting) htaken
    (by rw [directory_alter, directory_takeIn]; exact hp) hunusable (by rwa [htransport])
    (by rwa [htransport]) (n.session k).streamId key
  have hlength : awaiting.sessions.length = n.sessions.length := by simp [awaiting, taken]
  rw [hlength] at hasked
  rw [step_receive_key hn settings hfind (Stanza.of?_key _ _ _) (Stanza.type_key _ _ _) hnamed,
    hp.spelled_eq hto hfrom, receiveKey_of_not_demandsTls hallowed (by rwa [hpresented]),
    hpresented, hview Session.streamId (fun _ => rfl) fun _ => rfl, hasked]

end Hear

/-- On a relay no key is presented: what waits is written. -/
theorem presentKey_of_relay {n : Node τ} {k : SessionKey} {p : DomainPair} {id secret : String}
    (hid : (n.session k).peerStreamId = some id) (hpair : (n.session k).pair = some p)
    (hrelay : (n.session k).isRelay) (hsecret : n.directory.secretFor p.own = .ok secret) :
    n.presentKey k = (((n.alter k (·.setMethod dialbackMethod)).alter k
      (·.setPhase .awaitingVerify)).flush k).2 := by
  simp only [presentKey, hid, hpair, hsecret, hrelay, if_true]

end Node

end Federation
