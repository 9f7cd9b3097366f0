import Federation.Proofs.Node.Coherence
import Federation.Proofs.Node.Receipt

/-!
The deeds of a node: what it does to its connections. Whatever it does on its own, it writes stanzas
of dialback and queues of them, tears down the connections of sessions that it has, and when it
complains of the stream of a connection that is there, it tears this connection down at once.
-/

namespace Federation

def Session.outlet (s : Session) : ConnId × Bool × List Element :=
  (s.conn, s.isClosing, s.waiting)

namespace Node

open Relation

variable {τ : Type}

/-- A step that has no effect, ends no session and queues stanzas of dialback at most. -/
structure Internal (n m : Node τ) : Prop where
  log : m.log = n.log
  transport : m.transport = n.transport
  live : m.live = n.live
  length : m.sessions.length = n.sessions.length
  conn : ∀ k, (m.session k).conn = (n.session k).conn
  closing : ∀ k, (m.session k).isClosing = (n.session k).isClosing
  waiting : ∀ k, ∀ e ∈ (m.session k).waiting,
    e ∈ (n.session k).waiting ∨ (DialbackKind.of? e).isSome
  alarms : ∀ alarm ∈ m.alarms, alarm ∈ n.alarms

namespace Internal

variable {n m : Node τ}

theorem of_sessions_eq (hlog : m.log = n.log) (htransport : m.transport = n.transport)
    (hlive : m.live = n.live) (hsessions : m.sessions = n.sessions)
    (halarms : ∀ alarm ∈ m.alarms, alarm ∈ n.alarms) : Internal n m := by
  have hsession : ∀ k, m.session k = n.session k := fun k => by rw [session, hsessions, session]
  exact ⟨hlog, htransport, hlive, by rw [hsessions], fun k => by rw [hsession],
    fun k => by rw [hsession], fun k e he => Or.inl (by rwa [hsession] at he), halarms⟩

theorem refl (n : Node τ) : Internal n n :=
  .of_sessions_eq rfl rfl rfl rfl fun _ h => h

theorem alter {f : Session → Session} (hf : ∀ s, (f s).outlet = s.outlet) (n : Node τ)
    (k : SessionKey) : Internal n (n.alter k f) := by
  have hview := view_session_alter Session.outlet hf n k
  have hwaiting : ∀ j, ((n.alter k f).session j).waiting = (n.session j).waiting := fun j =>
    congrArg (·.2.2) (hview j)
  exact ⟨rfl, rfl, rfl, length_sessions_alter n k f, fun j => congrArg (·.1) (hview j),
    fun j => congrArg (·.2.1) (hview j), fun j e he => Or.inl (by rwa [hwaiting] at he),
    fun _ h => h⟩

theorem setPhase (n : Node τ) (k : SessionKey) (phase : Phase) :
    Internal n (n.alter k (·.setPhase phase)) :=
  .alter (Session.view_setPhase Session.outlet (fun _ _ => rfl) phase) n k

theorem enqueue (n : Node τ) (k : SessionKey) {stanza : Element}
    (h : (DialbackKind.of? stanza).isSome) : Internal n (n.alter k (·.enqueue stanza)) where
  log := rfl
  transport := rfl
  live := rfl
  length := length_sessions_alter n k _
  conn := view_session_alter Session.conn (f := (·.enqueue stanza)) (fun _ => rfl) n k
  closing := view_session_alter Session.isClosing (f := (·.enqueue stanza)) (fun _ => rfl) n k
  waiting := by
    intro j e he
    rw [session_alter] at he
    split at he
    · rcases List.mem_append.mp he with hold | hnew
      · exact Or.inl hold
      · rw [List.mem_singleton.mp hnew]
        exact Or.inr h
    · exact Or.inl he
  alarms := fun _ h => h

theorem withRegistry (n : Node τ) (r : Registry) : Internal n { n with registry := r } :=
  .of_sessions_eq rfl rfl rfl rfl fun _ h => h

theorem entry (n : Node τ) (pair : DomainPair) : Internal n (n.entry pair).2 := by
  unfold Node.entry
  split
  · exact .refl n
  · exact .withRegistry n _

theorem trans {o : Node τ} (h : Internal n m) (h' : Internal m o) : Internal n o where
  log := h'.log.trans h.log
  transport := h'.transport.trans h.transport
  live := h'.live.trans h.live
  length := h'.length.trans h.length
  conn := fun k => (h'.conn k).trans (h.conn k)
  closing := fun k => (h'.closing k).trans (h.closing k)
  waiting := fun k e he => (h'.waiting k e he).elim (h.waiting k e) Or.inr
  alarms := fun alarm halarm => h.alarms alarm (h'.alarms alarm halarm)

theorem addIncoming (n : Node τ) (p : DomainPair) (k : SessionKey) :
    Internal n (n.addIncoming p k) :=
  (withRegistry n _).trans (.alter (f := (·.join p)) (fun _ => rfl) _ k)

theorem trust (n : Node τ) (p : DomainPair) (k : SessionKey) : Internal n (n.trust p k) := by
  have hadded : Internal n (n.addLink p k) := by
    unfold addLink
    split
    · exact .addIncoming n p k
    · exact (withRegistry n _).trans (.alter (f := (·.join p)) (fun _ => rfl) _ k)
  exact hadded.trans ((alter (f := (·.markTrusted p)) (fun _ => rfl) _ k).trans (.withRegistry _ _))

theorem takeIn (n : Node τ) (k : SessionKey) (spelled p : DomainPair) :
    Internal n (n.takeIn k spelled p) := by
  have hentry : Internal n ((n.alter k (·.adoptPair spelled)).withEntry p) :=
    (alter (f := (·.adoptPair spelled)) (fun _ => rfl) n k).trans (.withRegistry _ _)
  unfold Node.takeIn
  simp only
  split
  · exact hentry.trans (.addIncoming _ p k)
  · exact hentry

theorem isLive_iff (h : Internal n m) (k : SessionKey) : m.IsLive k ↔ n.IsLive k := by
  rw [IsLive, IsLive, find?, find?, h.live, h.conn]

end Internal

variable [Transport τ]

inductive Deed : Node τ → Node τ → Prop
  | internal {n m : Node τ} (h : Internal n m) : Deed n m
  | sendNow (n : Node τ) (k : SessionKey) {stanza : Element}
      (h : (DialbackKind.of? stanza).isSome) : Deed n (n.sendNow k stanza).2
  | flush (n : Node τ) (k : SessionKey) : Deed n (n.flush k).2
  | stop {n : Node τ} {k : SessionKey} (hk : k < n.sessions.length) (force : Bool) :
      Deed n (n.stop k force)
  | failStream {n : Node τ} {k : SessionKey} (hk : k < n.sessions.length) (hlive : n.IsLive k)
      (condition : String) (force : Bool) : Deed n (n.failStream k condition force)
  | accept (n : Node τ) (conn : ConnId) (address : String) : Deed n (n.accept conn address).2
  | refuse {n : Node τ} {p : DomainPair} {e : TransportError} (h : (n.connect p).1 = .error e) :
      Deed n (n.connect p).2
  | establish {n : Node τ} {p : DomainPair} {conn : ConnId} (h : (n.connect p).1 = .ok conn)
      (relayFor : Option String) : Deed n ((n.connect p).2.establish p relayFor conn)
  | close {n : Node τ} {conn : ConnId} {k : SessionKey} (hfind : n.find? conn = some k)
      (hconn : (n.session k).conn = conn) : Deed n (n.connectionClosed conn)
  | arm {n : Node τ} (timeout : Duration) {k : SessionKey} (hk : k < n.sessions.length) :
      Deed n (n.arm timeout k)

abbrev Deeds : Node τ → Node τ → Prop :=
  ReflTransGen Deed

theorem Internal.deeds {n m : Node τ} (h : Internal n m) : Deeds n m :=
  .single (.internal h)

/-- The connections of sessions stay, and more may come. -/
theorem Deed.conns_prefix {n m : Node τ} (h : Deed n m) :
    n.sessions.map (·.conn) <+: m.sessions.map (·.conn) := by
  have hkept : ∀ {m' : Node τ}, m'.sessions.length = n.sessions.length →
      (∀ k, (m'.session k).conn = (n.session k).conn) →
      n.sessions.map (·.conn) <+: m'.sessions.map (·.conn) := by
    intro m' hlength hconn
    refine List.prefix_iff_getElem.mpr ⟨by simp [hlength], fun k hk => ?_⟩
    have hlt : k < n.sessions.length := by simpa using hk
    simpa [session, hlt, hlength] using (hconn k).symm
  cases h with
  | internal h => exact hkept h.length h.conn
  | sendNow k _ => exact hkept rfl fun _ => rfl
  | flush k =>
    exact hkept (length_sessions_flush n k) (view_session_flush n Session.conn (fun _ => rfl) k)
  | stop hk force =>
    exact hkept (length_sessions_stop n _ force) fun j =>
      view_session_stop n Session.conn (fun _ => rfl) _ j force
  | @failStream k hk hlive condition force =>
    exact hkept (length_sessions_stop (n.sendNow k _).2 k force) fun j =>
      view_session_stop (n.sendNow k _).2 Session.conn (fun _ => rfl) k j force
  | accept conn address =>
    rw [Node.accept, register, addSession, List.map_append]
    exact List.prefix_append _ _
  | refuse => exact hkept rfl fun _ => rfl
  | @establish p conn h relayFor =>
    have hsession := session_establish (n.connect p).2 p relayFor conn
    refine List.prefix_iff_getElem.mpr ⟨?_, fun k hk => ?_⟩
    · simp [length_sessions_establish]
    · have hlt : k < n.sessions.length := by simpa using hk
      have hsame := hsession k
      rw [sessions_connect, if_neg (Nat.ne_of_lt hlt)] at hsame
      have hlt' : k < ((n.connect p).2.establish p relayFor conn).sessions.length := by
        rw [length_sessions_establish]
        exact Nat.lt_succ_of_lt hlt
      simpa [session, hlt, hlt'] using congrArg Session.conn hsame.symm
  | close hfind hconn =>
    exact hkept (length_sessions_connectionClosed hfind)
      (view_session_connectionClosed hfind Session.conn fun _ => rfl)
  | arm => exact hkept rfl fun _ => rfl

theorem Deeds.conns_prefix {n m : Node τ} (h : Deeds n m) :
    n.sessions.map (·.conn) <+: m.sessions.map (·.conn) := by
  induction h with
  | refl => exact List.prefix_refl _
  | tail _ hdeed ih => exact ih.trans hdeed.conns_prefix

theorem Deeds.length_le {n m : Node τ} (h : Deeds n m) : n.sessions.length ≤ m.sessions.length := by
  simpa using h.conns_prefix.length_le

section Links

variable (n : Node τ)

theorem deeds_flushPair (p : DomainPair) : Deeds n (n.flushPair p) := by
  unfold flushPair
  induction n.linkKeys p generalizing n with
  | nil => exact .refl
  | cons k rest ih =>
    refine ReflTransGen.trans ?_ (ih (n.flushIfUp k))
    unfold flushIfUp
    split
    · exact .refl
    · exact .single (.flush n k)

theorem deeds_authenticate (p : DomainPair) (k : SessionKey) : Deeds n (n.authenticate p k) :=
  (Internal.trust n p k).deeds.trans (deeds_flushPair _ p)

end Links

section Questions

variable (n : Node τ) (pair : DomainPair)

/-- A connection that is opened is registered, and closed again if it is dead. -/
theorem deeds_openConnection (relayFor : Option String) :
    Deeds n (n.openConnection pair relayFor).2 := by
  have hentry := (Internal.entry n pair).deeds
  unfold openConnection
  rcases hr : n.entry pair with ⟨outcome, m⟩
  rw [hr] at hentry
  cases outcome with
  | error e => exact hentry
  | ok p =>
    rcases hc : m.connect p with ⟨outcome, c⟩
    have hnode : c = (m.connect p).2 := by rw [hc]
    simp only [hc]
    cases outcome with
    | error e =>
      rw [hnode]
      exact hentry.tail (.refuse (e := e) (by rw [hc]))
    | ok conn =>
      have hopened : Deeds n (c.establish p relayFor conn) := by
        rw [hnode]
        exact hentry.tail (.establish (by rw [hc]) relayFor)
      have hself := session_establish c p relayFor conn c.sessions.length
      rw [if_pos rfl] at hself
      have hclosed : Deeds n ((c.establish p relayFor conn).connectionClosed conn) :=
        hopened.tail (.close (find?_register_self _ conn c.sessions.length) (by rw [hself]; rfl))
      simp only
      split
      · exact hopened
      · exact hclosed

theorem deeds_requestVerification (id key : String) :
    Deeds n (n.requestVerification pair id key).2 := by
  have hentry := (Internal.entry n pair).deeds
  unfold requestVerification
  rcases hr : n.entry pair with ⟨outcome, m⟩
  rw [hr] at hentry
  cases outcome with
  | error e => exact hentry
  | ok p =>
    have hverifier : Deeds n (m.verifier p).2 := by
      unfold verifier
      split
      · exact hentry
      · exact hentry.trans (deeds_openConnection m p _)
    rcases hv : m.verifier p with ⟨outcome, v⟩
    rw [hv] at hverifier
    simp only [hv]
    cases outcome with
    | error e => exact hverifier
    | ok k =>
      have hnoted : Internal v (v.alter k (·.addVerifyRequest p.peer id)) :=
        .alter (f := (·.addVerifyRequest p.peer id)) (fun _ => rfl) v k
      have hquestion : (DialbackKind.of? (Stanza.verifyRequest p.own p.peer id key)).isSome := by
        rw [Stanza.of?_verifyRequest]
        rfl
      have hqueued := hnoted.trans (.enqueue _ k hquestion)
      simp only
      split
      · exact (hverifier.trans hqueued.deeds).tail (.flush _ k)
      · exact hverifier.trans hqueued.deeds

end Questions

section Session

variable {n : Node τ} {k : SessionKey} (hk : k < n.sessions.length)

theorem deeds_reply (n : Node τ) (k : SessionKey) {stanza : Element}
    (h : (DialbackKind.of? stanza).isSome) : Deeds n (n.reply k stanza) :=
  .single (.sendNow n k h)

theorem deeds_refuseKey (n : Node τ) (k : SessionKey) (pair : DomainPair) (condition : String) :
    Deeds n (n.refuseKey k pair condition) :=
  deeds_reply n k (by rw [Stanza.of?_resultReply]; rfl)

theorem deeds_relayVerdict (n : Node τ) (k : SessionKey) (pair : DomainPair) (stanza : Element)
    (verdict : Verdict) : Deeds n (n.relayVerdict k pair stanza verdict) := by
  have hreply : ∀ (m : Node τ) (t : SessionKey) (isValid : Bool), Deeds m (m.reply t
      (Stanza.resultReply pair.own pair.peer (.ofBool isValid) none)) := fun m t isValid =>
    deeds_reply m t (by rw [Stanza.of?_resultReply]; rfl)
  unfold relayVerdict
  split
  · exact .refl
  · rename_i id _
    split
    · exact .refl
    · have hdropped : Deeds n (n.alter k (·.dropVerifyRequest pair.peer id)) :=
        (Internal.alter (f := (·.dropVerifyRequest pair.peer id)) (fun _ => rfl) n k).deeds
      by_cases hvalid : verdict = .valid
      · simp only [hvalid, decide_true, if_true, authenticateByStream]
        cases (n.alter k (·.dropVerifyRequest pair.peer id)).incomingByStream? pair id with
        | none => exact hdropped
        | some t =>
          exact (hdropped.trans (deeds_authenticate _ pair t)).trans (hreply _ t true)
      · simp only [hvalid, decide_false, Bool.false_eq_true, if_false]
        cases (n.alter k (·.dropVerifyRequest pair.peer id)).incomingByStream? pair id with
        | none => exact hdropped
        | some t => exact hdropped.trans (hreply _ t false)

include hk

theorem deeds_receiveVerdict (pair : DomainPair) (verdict : Verdict) :
    Deeds n (n.receiveVerdict k pair verdict) := by
  unfold receiveVerdict
  cases verdict with
  | valid =>
    simp only
    split
    · exact (Internal.alter (f := (·.dropKeyRequest pair.peer)) (fun _ => rfl) n k).deeds.trans
        (deeds_authenticate _ pair k)
    · exact .refl
  | invalid => exact .single (.stop hk false)
  | error => exact .single (.stop hk false)

theorem deeds_receiveVerifyReply (pair : DomainPair) (stanza : Element) (verdict : Verdict) :
    Deeds n (n.receiveVerifyReply k pair stanza verdict) := by
  have hrelayed := deeds_relayVerdict n k pair stanza verdict
  unfold receiveVerifyReply
  simp only
  split
  · exact hrelayed.tail (.stop (Nat.lt_of_lt_of_le hk hrelayed.length_le) false)
  · exact hrelayed

variable (hlive : n.IsLive k)

include hlive

theorem deeds_presentKey : Deeds n (n.presentKey k) := by
  unfold presentKey
  cases hid : (n.session k).peerStreamId with
  | none => simpa only [hid] using ReflTransGen.single (.failStream hk hlive _ false)
  | some id =>
    cases hpair : (n.session k).pair with
    | none => simpa only [hid, hpair] using ReflTransGen.single (.failStream hk hlive _ false)
    | some pair =>
      cases hsecret : n.directory.secretFor pair.own with
      | error e =>
        simpa only [hid, hpair, hsecret] using ReflTransGen.single (.failStream hk hlive _ false)
      | ok secret =>
        have hmethod : Internal n (n.alter k (·.setMethod dialbackMethod)) :=
          .alter (f := (·.setMethod dialbackMethod)) (fun _ => rfl) n k
        simp only [hid, hpair, hsecret]
        split
        · exact (hmethod.trans (.setPhase _ k _)).deeds.tail (.flush _ k)
        · have hrequest := hmethod.trans
            (.alter (f := (·.addKeyRequest pair.peer)) (fun _ => rfl) _ k)
          have hkey : (DialbackKind.of? (Stanza.key pair.own pair.peer
              (Key.derive pair.own pair.peer secret id))).isSome := by
            rw [Stanza.of?_key]
            rfl
          have hqueued := hrequest.trans (.enqueue _ k hkey)
          exact (hqueued.trans (.setPhase _ k _)).deeds.tail (.flush _ k)

theorem deeds_receiveFeatures (workaround : Bool) (features : Element) :
    Deeds n (n.receiveFeatures workaround k features).2 := by
  unfold receiveFeatures
  simp only
  split
  · exact .refl
  · cases (n.session k).pair with
    | none => exact .refl
    | some pair =>
      simp only
      split
      · exact (Internal.setPhase n k _).deeds
      · split
        · have hentry := Internal.entry n pair
          rcases hr : n.entry pair with ⟨outcome, m⟩
          rw [hr] at hentry
          cases outcome with
          | error e =>
            refine hentry.deeds.tail (.failStream ?_ ((hentry.isLive_iff k).mpr hlive) _ true)
            rwa [hentry.length]
          | ok p =>
            have hmethod := hentry.trans
              (.alter (f := (·.setMethod certificateMethod)) (fun _ => rfl) m k)
            exact hmethod.deeds.trans (deeds_authenticate _ p k)
        · split
          · exact .single (.failStream hk hlive _ true)
          · exact deeds_presentKey hk hlive

theorem deeds_receiveKey (pair : DomainPair) (stanza : Element) :
    Deeds n (n.receiveKey k pair stanza) := by
  have hasked := (Internal.setPhase n k .awaitingVerify).deeds.trans
    (deeds_requestVerification (n.alter k (·.setPhase .awaitingVerify)) pair
      (n.session k).streamId (Text.trim (stanza.cdata.getD "")))
  unfold receiveKey
  simp only
  split
  · exact deeds_refuseKey n k pair _
  · split
    · exact .single (.failStream hk hlive _ false)
    · rcases hr : (n.alter k (·.setPhase .awaitingVerify)).requestVerification pair
        (n.session k).streamId (Text.trim (stanza.cdata.getD "")) with ⟨outcome, m⟩
      rw [hr] at hasked
      cases outcome with
      | ok _ => exact hasked
      | error e => exact hasked.trans (deeds_refuseKey m k pair _)

theorem deeds_answerVerify (pair : DomainPair) (stanza : Element) :
    Deeds n (n.answerVerify k pair stanza) := by
  unfold answerVerify
  split
  · exact .single (.failStream hk hlive _ false)
  · exact deeds_reply n k (by rw [Stanza.of?_verifyReply]; rfl)

theorem deeds_receiveDialback (hn : n.HasCanonicalEntries) (kind : DialbackKind)
    (stanza : Element) : Deeds n (n.receiveDialback k kind stanza) := by
  cases hnamed : n.directory.pairNamed? stanza with
  | none =>
    have hadopt : Internal n (n.alter k (·.adoptPair stanza.spelled)) :=
      .alter (f := (·.adoptPair stanza.spelled)) (fun _ => rfl) n k
    obtain ⟨condition, heq | heq⟩ := receiveDialback_of_unnamed (k := k) hn hnamed kind
    · rw [heq]
      exact .single (.failStream hk hlive condition false)
    · rw [heq]
      refine hadopt.deeds.tail (.failStream ?_ ((hadopt.isLive_iff k).mpr hlive) condition false)
      rwa [hadopt.length]
  | some p =>
    have htaken := Internal.takeIn n k stanza.spelled p
    have hlive' := (htaken.isLive_iff k).mpr hlive
    have hk' := Nat.lt_of_lt_of_eq hk htaken.length.symm
    rw [receiveDialback_eq hn hnamed]
    unfold dispatchDialback
    split
    · exact htaken.deeds.trans (deeds_receiveKey hk' hlive' _ stanza)
    · exact htaken.deeds.trans (deeds_receiveVerdict hk' p _)
    · exact htaken.deeds.trans (deeds_answerVerify hk' hlive' _ stanza)
    · exact htaken.deeds.trans (deeds_receiveVerifyReply hk' p stanza _)

theorem deeds_chain_streamOpened (settings : Settings) (header : StreamHeader) :
    Deeds n ((Chain.standard settings).streamOpened n k header).2 := by
  rw [standard_eq]
  simp only [Chain.streamOpened, Processor.streamError, Processor.dialback]
  cases (n.session k).role with
  | inbound => exact (Internal.setPhase n k _).deeds
  | outbound =>
    simp only
    split
    · exact (Internal.setPhase n k _).deeds
    · exact deeds_presentKey hk hlive

end Session

section Step

variable {n : Node τ} (hn : n.WellFormed) (settings : Settings)

include hn

theorem deeds_receive (conn : ConnId) (stanza : Element) :
    Deeds n (n.step (Chain.standard settings) (.receive conn stanza)) := by
  cases hfind : n.find? conn with
  | none =>
    simp only [step, receive, hfind]
    exact .refl
  | some k =>
    obtain ⟨hk, hconn⟩ := hn.live conn k hfind
    have hlive : n.IsLive k := by rw [IsLive, hconn, hfind]
    cases hkind : DialbackKind.of? stanza with
    | some kind =>
      rw [step_receive_of_dialback settings hfind hkind]
      exact deeds_receiveDialback hk hlive hn.entries kind stanza
    | none =>
      rw [step_receive_other settings hfind hkind]
      split
      · exact .single (.stop hk false)
      · split
        · exact deeds_receiveFeatures hk hlive _ stanza
        · exact .refl

theorem deeds_streamOpened (conn : ConnId) (header : StreamHeader) :
    Deeds n (n.streamOpened (Chain.standard settings) conn header).2 := by
  cases hfind : n.find? conn with
  | none =>
    simp only [streamOpened, hfind]
    exact .refl
  | some k =>
    obtain ⟨hk, hconn⟩ := hn.live conn k hfind
    have hlive : n.IsLive k := by rw [IsLive, hconn, hfind]
    cases hrole : (n.session k).role with
    | inbound =>
      have hanswer : Internal n (n.answerHeader (Chain.standard settings) k header).2.2 := by
        obtain heq | ⟨pair, -, heq⟩ :=
          answerHeader_cases (n := n) (Chain.standard settings) k header
        · rw [heq]
          exact .refl n
        · rw [heq]
          exact .alter (f := (·.setPair pair)) (fun _ => rfl) n k
      simp only [streamOpened, hfind, hrole]
      rcases hr : n.answerHeader (Chain.standard settings) k header with ⟨text, error, m⟩
      rw [hr] at hanswer
      have hk' : k < m.sessions.length := Nat.lt_of_lt_of_eq hk hanswer.length.symm
      cases error with
      | some e => exact hanswer.deeds.tail (.stop hk' false)
      | none =>
        exact hanswer.deeds.trans
          (deeds_chain_streamOpened hk' ((hanswer.isLive_iff k).mpr hlive) settings header)
    | outbound =>
      simp only [streamOpened, hfind, hrole]
      cases header.id with
      | none => exact deeds_chain_streamOpened hk hlive settings header
      | some id =>
        have hnoted : Internal n (n.alter k (·.setPeerStreamId id)) :=
          .alter (f := (·.setPeerStreamId id)) (fun _ => rfl) n k
        exact hnoted.deeds.trans (deeds_chain_streamOpened
          (Nat.lt_of_lt_of_eq hk hnoted.length.symm) ((hnoted.isLive_iff k).mpr hlive) settings
          header)

omit hn in
theorem deeds_advance (halarms : ∀ alarm ∈ n.alarms, alarm.session < n.sessions.length)
    (milliseconds : Nat) : Deeds n (n.advance milliseconds) := by
  have hexpired : ∀ (alarms : List Alarm) (m : Node τ),
      (∀ alarm ∈ alarms, alarm.session < m.sessions.length) →
      Deeds m (alarms.foldl (fun n alarm => n.expire alarm.session) m) := by
    intro alarms
    induction alarms with
    | nil => exact fun _ _ => .refl
    | cons alarm rest ih =>
      intro m hdue
      have hfirst : Deeds m (m.expire alarm.session) := by
        unfold expire
        split
        · exact .single (.stop (hdue alarm List.mem_cons_self) true)
        · exact .refl
      exact hfirst.trans (ih _ fun later hlater => Nat.lt_of_lt_of_le
        (hdue later (List.mem_cons_of_mem alarm hlater)) hfirst.length_le)
  have hwaiting : ∀ {kept : List Alarm}, (∀ alarm ∈ kept, alarm ∈ n.alarms) → Internal n
      { n.tick milliseconds with alarms := kept } := fun hkept =>
    .of_sessions_eq rfl rfl rfl rfl hkept
  unfold advance runDue
  refine (hwaiting fun alarm halarm => (List.mem_filter.mp halarm).1).deeds.trans (hexpired _ _ ?_)
  intro alarm hdue
  exact halarms alarm (List.mem_filter.mp (List.mem_mergeSort.mp hdue)).1

/-- Whatever a node does, except for the traffic of a caller, is a sequence of deeds. -/
theorem step_deeds (halarms : ∀ alarm ∈ n.alarms, alarm.session < n.sessions.length) {event : Event}
    (hevent : ∀ pair stanza, event ≠ .send pair stanza) :
    Deeds n (n.step (Chain.standard settings) event) := by
  cases event with
  | accept conn address => exact .single (.accept n conn address)
  | openConnection pair relayFor => exact deeds_openConnection n pair relayFor
  | serviceStarted conn =>
    simp only [step, serviceStarted]
    cases hfind : n.find? conn with
    | none => exact .refl
    | some k =>
      simp only [standard_eq]
      exact .single (.arm settings.authTimeout (hn.live conn k hfind).1)
  | streamOpened conn header => exact deeds_streamOpened hn settings conn header
  | receive conn stanza => exact deeds_receive hn settings conn stanza
  | tlsCompleted conn trust =>
    simp only [step, tlsCompleted]
    split
    · exact (Internal.alter (f := (·.recordTls trust)) (fun _ => rfl) n _).deeds
    · exact .refl
  | connectionClosed conn =>
    cases hfind : n.find? conn with
    | none =>
      simp only [step, connectionClosed, hfind]
      exact .refl
    | some k => exact .single (.close hfind (hn.live conn k hfind).2)
  | send pair stanza => exact absurd rfl (hevent pair stanza)
  | requestVerification pair id key => exact deeds_requestVerification n pair id key
  | advance milliseconds => exact deeds_advance halarms milliseconds

end Step

end Node

end Federation
