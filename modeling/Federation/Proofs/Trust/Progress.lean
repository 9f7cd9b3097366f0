import Federation.Proofs.Trust.Exchange

/-!
What a session of a dialback waits for, and how each step brings it: a key that was presented waits
for its verdict, a question for its answer, and what answers them makes the pair trusted.
-/

namespace Federation

structure Session.IsNote (f : Session → Session) : Prop where
  conn : ∀ s, (f s).conn = s.conn
  isClosing : ∀ s, (f s).isClosing = s.isClosing
  waiting : ∀ s, (f s).waiting = s.waiting

theorem Session.isNote_dropKeyRequest (domain : String) :
    IsNote (·.dropKeyRequest domain) where
  conn := fun _ => rfl
  isClosing := fun _ => rfl
  waiting := fun _ => rfl

theorem Session.isNote_dropVerifyRequest (domain id : String) :
    IsNote (·.dropVerifyRequest domain id) where
  conn := fun _ => rfl
  isClosing := fun _ => rfl
  waiting := fun _ => rfl

namespace Node

variable {τ : Type}

/-- A session that is not being torn down, on a connection that is kept up, and on
which nothing waits. -/
structure Rests (up : τ → ConnId → Prop) (n : Node τ) (k : SessionKey) (conn : ConnId) : Prop where
  ofConn : (n.session k).conn = conn
  isClosing : (n.session k).isClosing = false
  waiting : (n.session k).waiting = []
  isUp : up n.transport conn

structure AwaitsVerdict (up : τ → ConnId → Prop) (n : Node τ) (k : SessionKey) (p : DomainPair)
    (conn : ConnId) : Prop extends Rests up n k conn where
  role : (n.session k).role = .outbound
  request : (n.session k).hasKeyRequest p.peer

/-- A question about the key that was presented on a stream was put on a relay, and there is no
answer to it yet. -/
structure AwaitsAnswer (up : τ → ConnId → Prop) (n : Node τ) (k : SessionKey) (p : DomainPair)
    (id : String) (conn : ConnId) : Prop extends Rests up n k conn where
  role : (n.session k).role = .outbound
  isRelay : (n.session k).isRelay
  request : (n.session k).hasVerifyRequest p.peer id

structure Verifies (up : τ → ConnId → Prop) (n : Node τ) (k : SessionKey) (p : DomainPair)
    (id : String) (conn : ConnId) : Prop extends Rests up n k conn where
  role : (n.session k).role = .inbound
  streamId : (n.session k).streamId = id
  joined : p ∈ (n.session k).joined

section Rest

variable {up : τ → ConnId → Prop} {n m : Node τ} {k : SessionKey} {conn : ConnId}

theorem Rests.of_eq (h : Rests up n k conn) (hsession : m.session k = n.session k)
    (hup : up m.transport conn) : Rests up m k conn := by
  refine ⟨?_, ?_, ?_, hup⟩ <;> rw [hsession]
  exacts [h.ofConn, h.isClosing, h.waiting]

theorem AwaitsVerdict.of_eq {p : DomainPair} (h : n.AwaitsVerdict up k p conn)
    (hsession : m.session k = n.session k) (hup : up m.transport conn) :
    m.AwaitsVerdict up k p conn := by
  refine ⟨h.toRests.of_eq hsession hup, ?_, ?_⟩ <;> rw [hsession]
  exacts [h.role, h.request]

theorem Verifies.of_eq {p : DomainPair} {id : String} (h : n.Verifies up k p id conn)
    (hsession : m.session k = n.session k) (hup : up m.transport conn) :
    m.Verifies up k p id conn := by
  refine ⟨h.toRests.of_eq hsession hup, ?_, ?_, ?_⟩ <;> rw [hsession]
  exacts [h.role, h.streamId, h.joined]

theorem Rests.takeIn (h : Rests up n k conn) (j : SessionKey) (spelled p : DomainPair) :
    Rests up (n.takeIn j spelled p) k conn where
  ofConn := (view_session_takeIn n j spelled p Session.conn (fun _ => rfl) (fun _ => rfl) k).trans
    h.ofConn
  isClosing := (view_session_takeIn n j spelled p Session.isClosing (fun _ => rfl) (fun _ => rfl)
    k).trans h.isClosing
  waiting := (view_session_takeIn n j spelled p Session.waiting (fun _ => rfl) (fun _ => rfl)
    k).trans h.waiting
  isUp := by
    rw [transport_takeIn]
    exact h.isUp

end Rest

/-- A stream leads to the session on which it was announced, where no other one has its id. -/
theorem incomingByStream?_of_joined {n : Node τ} (hn : n.WellFormed) (hbound : n.Bound)
    (hcoherent : n.Coherent) {k : SessionKey}
    (hids : ∀ j < n.sessions.length, (n.session j).role = .inbound →
      (n.session j).streamId = (n.session k).streamId → j = k)
    (hlive : n.IsLive k) (hrole : (n.session k).role = .inbound) {p : DomainPair}
    (hjoined : p ∈ (n.session k).joined) :
    n.incomingByStream? p (n.session k).streamId = some k := by
  obtain ⟨e, he, hlink⟩ := hcoherent.joined k hlive p hjoined
  rw [hrole] at hlink
  have hmem : k ∈ n.incomingKeys p := mem_incomingKeys_iff.mpr ⟨e, he, _, hlink, rfl⟩
  cases hfound : n.incomingByStream? p (n.session k).streamId with
  | none =>
    have hnone := List.find?_eq_none.mp hfound k hmem
    simp at hnone
  | some j =>
    have hincoming := List.mem_of_find?_eq_some hfound
    obtain ⟨e', he', l, hl, rfl⟩ := mem_incomingKeys_iff.mp hincoming
    obtain ⟨-, hlive', -⟩ := hcoherent.links p e' he' .inbound l hl
    have hstream : (n.session l.session).streamId = (n.session k).streamId := by
      simpa using List.find?_some hfound
    rw [hids _ (hn.live _ _ hlive').1 (hbound.incoming p _ hincoming) hstream]

variable [Transport τ]

structure IsSettled (n : Node τ) (k : SessionKey) (p : DomainPair) : Prop where
  isAuthenticated : (n.session k).isAuthenticated
  isTrusted : (n.session k).isTrustedFor p
  isPairTrusted : n.registry.isAuthenticated p
  isOpen : n.isOpen k

theorem IsSettled.of_eq {n m : Node τ} {k : SessionKey} {p : DomainPair} (h : n.IsSettled k p)
    (hsession : m.session k = n.session k) (hregistry : m.registry = n.registry)
    (hopen : Transport.isOpen m.transport (m.session k).conn) : m.IsSettled k p where
  isAuthenticated := by
    rw [hsession]
    exact h.isAuthenticated
  isTrusted := by
    rw [hsession]
    exact h.isTrusted
  isPairTrusted := by
    rw [hregistry]
    exact h.isPairTrusted
  isOpen := by
    have hclosing := h.isOpen
    simp only [Node.isOpen, Bool.and_eq_true] at hclosing
    rw [Node.isOpen, hopen, hsession, hclosing.1]
    rfl

section Header

variable {up : τ → ConnId → Prop} (hkeeps : Transport.KeepsUp up) {n : Node τ}
  (settings : Settings) {conn : ConnId} {k : SessionKey} {p : DomainPair}
  (hfind : n.find? conn = some k) (hk : k < n.sessions.length) (hup : up n.transport conn)
  {header : StreamHeader} {id : String} (hid : header.id = some id)
  (hversion : header.version = none) {secret : String}
  (hsecret : n.directory.secretFor p.own = .ok secret)

include hkeeps hfind hk hup hid hversion hsecret

theorem awaitsVerdict_of_header {ident : String}
    (hsession : n.session k = (Session.opened conn p none ident).join p) :
    (n.step (Chain.standard settings) (.streamOpened conn header)).AwaitsVerdict up k p conn ∧
      (n.step (Chain.standard settings) (.streamOpened conn header)).log = n.log ++
        [.write conn [Stanza.key p.own p.peer (Key.derive p.own p.peer secret id)] true] ∧
      (n.step (Chain.standard settings) (.streamOpened conn header)).sessions.length =
        n.sessions.length := by
  let key := Key.derive p.own p.peer secret id
  let noted := n.alter k (·.setPeerStreamId id)
  let offering := noted.alter k (·.setMethod dialbackMethod)
  let s := (((Session.opened conn p none ident).join p).setPeerStreamId id).setMethod dialbackMethod
  have hk' : k < offering.sessions.length := by simpa [offering, noted] using hk
  have hnoted : noted.session k =
      ((Session.opened conn p none ident).join p).setPeerStreamId id := by
    rw [← hsession]
    exact session_alter_self hk _
  have hoffering : offering.session k = s :=
    (session_alter_self (by simpa [noted] using hk) _).trans (congrArg _ hnoted)
  have hstep : n.step (Chain.standard settings) (.streamOpened conn header) =
      offering.offerKey k p key := by
    rw [step_header_without_version settings hfind (by rw [hsession]; rfl) hversion, notePeerStream,
      hid]
    exact presentKey_eq_offerKey (n := noted) (by rw [hnoted]; rfl) (by rw [hnoted]; rfl)
      (by rw [hnoted]; rfl) hsecret
  have hoffered := session_offerKey offering k p key k
  rw [if_pos ⟨rfl, hk'⟩, hoffering] at hoffered
  have hlog := log_offerKey_eq hk' p key
  rw [hoffering] at hlog
  have hwritten := log_write_of_up hkeeps (n := offering) hup [Stanza.key p.own p.peer key]
  have hup' : up (offering.offerKey k p key).transport conn :=
    up_offerKey hkeeps (n := offering) hup k p key
  have hrequest : (s.addKeyRequest p.peer).hasKeyRequest p.peer := by
    rw [Session.hasKeyRequest_addKeyRequest, beq_self_eq_true, Bool.true_or]
  rw [hstep]
  refine ⟨⟨⟨?_, ?_, ?_, hup'⟩, ?_, ?_⟩, hlog.trans hwritten, ?_⟩
  · rw [hoffered]
    rfl
  · rw [hoffered]
    rfl
  · rw [hoffered]
  · rw [hoffered]
    rfl
  · rw [hoffered]
    exact hrequest
  · rw [length_sessions_offerKey]
    simp [offering, noted]

theorem awaitsAnswer_of_header {ident streamId key : String}
    (hsession : n.session k = (((Session.opened conn p (some p.peer) ident).join p).addVerifyRequest
      p.peer streamId).enqueue (Stanza.verifyRequest p.own p.peer streamId key)) :
    (n.step (Chain.standard settings) (.streamOpened conn header)).AwaitsAnswer up k p streamId
        conn ∧
      (n.step (Chain.standard settings) (.streamOpened conn header)).log = n.log ++
        [.write conn [Stanza.verifyRequest p.own p.peer streamId key] true] ∧
      (∀ j ≠ k, (n.step (Chain.standard settings) (.streamOpened conn header)).session j =
        n.session j) ∧
      (n.step (Chain.standard settings) (.streamOpened conn header)).sessions.length =
        n.sessions.length ∧
      ∀ other, up n.transport other →
        up (n.step (Chain.standard settings) (.streamOpened conn header)).transport other := by
  let noted := n.alter k (·.setPeerStreamId id)
  let settled := noted.alter k (·.setMethod dialbackMethod)
  let asking := settled.alter k (·.setPhase .awaitingVerify)
  have hnoted : noted.session k = (n.session k).setPeerStreamId id := session_alter_self hk _
  have hsettled : settled.session k = ((n.session k).setPeerStreamId id).setMethod dialbackMethod :=
    (session_alter_self (by simpa [noted] using hk) _).trans (congrArg _ hnoted)
  obtain ⟨phase, hasking⟩ : ∃ phase, asking.session k = { (((n.session k).setPeerStreamId
      id).setMethod dialbackMethod) with phase := phase } := by
    have hphase : asking.session k = (settled.session k).setPhase .awaitingVerify :=
      session_alter_self (by simpa [settled, noted] using hk) _
    rw [hphase, ← hsettled]
    exact ⟨_, Session.setPhase_eq _ _⟩
  rw [hsession] at hasking
  have hstep :
      n.step (Chain.standard settings) (.streamOpened conn header) = (asking.flush k).2 := by
    rw [step_header_without_version settings hfind (by rw [hsession]; rfl) hversion, notePeerStream,
      hid]
    exact presentKey_of_relay (n := noted) (by rw [hnoted]; rfl) (by rw [hnoted, hsession]; rfl)
      (by rw [hnoted, hsession]; rfl) hsecret
  have hk' : k < asking.sessions.length := by simpa [asking, settled, noted] using hk
  have hflushed := session_flush asking k k
  rw [if_pos ⟨rfl, hk'⟩, hasking] at hflushed
  have hlog := log_flush_of_up hkeeps (n := asking) (k := k) (by rw [hasking]; exact hup)
    (by rw [hasking]; exact List.cons_ne_nil _ _)
  rw [hasking] at hlog
  have hup' : ∀ other, up n.transport other → up (asking.flush k).2.transport other := by
    intro other hother
    refine up_flush hkeeps ?_ k
    exact hother
  rw [hstep]
  refine ⟨⟨⟨?_, ?_, ?_, hup' conn hup⟩, ?_, ?_, ?_⟩, hlog, fun j hne => ?_, ?_, hup'⟩
  · rw [hflushed]
    rfl
  · rw [hflushed]
    rfl
  · rw [hflushed]
    rfl
  · rw [hflushed]
    rfl
  · rw [hflushed]
    rfl
  · rw [hflushed]
    refine (Session.hasVerifyRequest_addVerifyRequest
      ((Session.opened conn p (some p.peer) ident).join p) p.peer p.peer streamId streamId).trans ?_
    rw [beq_self_eq_true, Bool.true_or]
  · rw [session_flush, if_neg fun h => hne h.1]
    exact ((session_alter_of_ne settled hne _).trans (session_alter_of_ne noted hne _)).trans
      (session_alter_of_ne n hne _)
  · rw [length_sessions_flush]
    simp [asking, settled, noted]

end Header

section Authenticate

variable {up : τ → ConnId → Prop} (hkeeps : Transport.KeepsUp up) {n : Node τ} {p : DomainPair}
  {k : SessionKey}

/-- Where nothing waits, nothing is written when a pair becomes trusted. -/
theorem writtenOn_authenticate (p : DomainPair) (k : SessionKey) {j : SessionKey}
    (hown : n.HasOwnConn j) (hwaiting : (n.session j).waiting = []) :
    (n.authenticate p k).writtenOn (n.session j).conn = n.writtenOn (n.session j).conn := by
  have hown' : (n.trust p k).HasOwnConn j :=
    hown.of_eq (length_sessions_trust n p k) fun i =>
      view_session_trust n p k Session.conn (fun _ => rfl) (fun _ => rfl) i
  have hflushed := (flushes_flushPair hown' p).writtenOn_eq
    ((view_session_trust n p k Session.waiting (fun _ => rfl) (fun _ => rfl) j).trans hwaiting)
  rw [view_session_trust n p k Session.conn (fun _ => rfl) (fun _ => rfl) j] at hflushed
  exact hflushed.trans (writtenOn_of_log_eq (log_trust n p k) _)

include hkeeps

theorem up_authenticate {conn : ConnId} (hup : up n.transport conn) :
    up (n.authenticate p k).transport conn := by
  refine up_flushPair hkeeps ?_ p
  rw [transport_trust]
  exact hup

theorem isSettled_authenticate {conn : ConnId} (hk : k < n.sessions.length)
    (hentry : (n.registry.get? p).isSome) (h : n.Rests up k conn) :
    (n.authenticate p k).IsSettled k p where
  isAuthenticated := by
    rw [authenticate, view_session_flushPair Session.isAuthenticated fun _ => rfl, session_trust,
      if_pos ⟨rfl, hk⟩]
    rfl
  isTrusted := (isTrustedFor_authenticate_iff hk k p).mpr (Or.inr ⟨rfl, rfl⟩)
  isPairTrusted := isAuthenticated_authenticate hentry k
  isOpen := by
    have hopen := hkeeps.isOpen (up_authenticate hkeeps (p := p) (k := k) h.isUp)
    rw [isOpen, view_session_authenticate Session.isClosing (fun _ => rfl) (fun _ => rfl)
      (fun _ => rfl), view_session_authenticate Session.conn (fun _ => rfl) (fun _ => rfl)
      (fun _ => rfl), h.isClosing, h.ofConn, hopen]
    rfl

end Authenticate

/-- A reply is all that is written when a connection is torn down after it. -/
theorem writtenOn_reply_stop {up : τ → ConnId → Prop} (hkeeps : Transport.KeepsUp up) {n : Node τ}
    {j : SessionKey} {conn : ConnId} (hconn : (n.session j).conn = conn)
    (hup : up n.transport conn) (element : Element) (k : SessionKey) (other : ConnId) :
    ((n.reply j element).stop k false).writtenOn other =
      n.writtenOn other ++ if conn = other then [element] else [] := by
  obtain ⟨more, hlog, hnone⟩ := log_stop (n.reply j element) k false
  rw [writtenOn_of_log_append hlog fun batch hwrite => absurd hwrite (hnone _ _ _)]
  refine writtenOn_of_log_write ?_ other
  rw [reply, sendNow, hconn]
  exact log_write_of_up hkeeps hup [element]

section Grant

variable {up : τ → ConnId → Prop} (hkeeps : Transport.KeepsUp up) {n : Node τ} {p : DomainPair}
  {r k : SessionKey} {f : Session → Session} (hf : Session.IsNote f)

include hf

omit [Transport τ] in
theorem Rests.noted {j : SessionKey} {conn : ConnId} (h : n.Rests up j conn) :
    Rests up ((n.takeIn r p p).alter r f) j conn where
  ofConn := (view_session_alter Session.conn hf.conn _ r j).trans (h.takeIn r p p).ofConn
  isClosing := (view_session_alter Session.isClosing hf.isClosing _ r j).trans
    (h.takeIn r p p).isClosing
  waiting := (view_session_alter Session.waiting hf.waiting _ r j).trans (h.takeIn r p p).waiting
  isUp := (h.takeIn r p p).isUp

include hkeeps

theorem isSettled_grant {conn : ConnId} (hk : k < n.sessions.length) (h : n.Rests up k conn) :
    (n.grant r f p k).IsSettled k p :=
  isSettled_authenticate hkeeps (by simpa using hk) (isSome_get?_takeIn n r p p)
    (h.noted hf)

theorem up_grant {j : SessionKey} {conn : ConnId} (h : n.Rests up j conn) :
    up (n.grant r f p k).transport conn :=
  up_authenticate hkeeps (h.noted hf (r := r) (p := p)).isUp

omit hkeeps in
theorem writtenOn_grant {j : SessionKey} (hown : n.HasOwnConn j)
    (hempty : (n.session j).waiting = []) :
    (n.grant r f p k).writtenOn (n.session j).conn = n.writtenOn (n.session j).conn := by
  let base := (n.takeIn r p p).alter r f
  have hkept : ∀ i, (base.session i).conn = (n.session i).conn := fun i =>
    view_session_takeIn_alter n r p p Session.conn (fun _ => rfl) (fun _ => rfl) hf.conn i
  have hquiet : (base.session j).waiting = [] :=
    (view_session_takeIn_alter n r p p Session.waiting (fun _ => rfl) (fun _ => rfl) hf.waiting
      j).trans hempty
  have hwritten := writtenOn_authenticate p k (hown.of_eq (by simp [base]) hkept) hquiet
  rw [hkept] at hwritten
  exact hwritten.trans (writtenOn_of_log_eq (log_takeIn n r p p) _)

end Grant

section Verdict

variable {up : τ → ConnId → Prop} (hkeeps : Transport.KeepsUp up) {n : Node τ}
  (hn : n.WellFormed) (settings : Settings) {conn : ConnId} {k : SessionKey} {p : DomainPair}
  (hfind : n.find? conn = some k) (hp : p.IsCanonical n.directory.isServed)

include hkeeps hn hfind hp

/-- The peer is told that its key is right, and that is all. -/
theorem answers_right_key (id : String) {secret : String} (h : n.Rests up k conn)
    (hsecret : n.directory.secretFor p.own = .ok secret) :
    let m := n.step (Chain.standard settings) (.receive conn
      (Stanza.verifyRequest p.peer p.own id (Key.derive p.own p.peer secret id)))
    m.Rests up k conn ∧
      m.log = n.log ++ [.write conn [Stanza.verifyReply p.own p.peer id true] true] ∧
      (∀ j ≠ k, m.session j = n.session j) ∧ m.sessions.length = n.sessions.length ∧
      ∀ other, up n.transport other → up m.transport other := by
  intro m
  have hm : m = (n.takeIn k p p).reply k (Stanza.verifyReply p.own p.peer id true) :=
    step_receive_right_key hn settings hfind hp hsecret
  have htaken := h.takeIn k p p
  have hlog := log_write_of_up hkeeps htaken.isUp [Stanza.verifyReply p.own p.peer id true]
  rw [log_takeIn] at hlog
  have hwritten : ∀ other, up n.transport other → up m.transport other := by
    intro other hother
    rw [hm]
    refine hkeeps.write ?_ _ _
    rw [transport_takeIn]
    exact hother
  refine ⟨?_, ?_, fun j hne => ?_, ?_, hwritten⟩
  · refine Rests.of_eq htaken ?_ (hwritten conn h.isUp)
    rw [hm]
    rfl
  · rw [hm, reply, sendNow, htaken.ofConn]
    exact hlog
  · rw [hm]
    exact (session_takeIn n k p p j).trans (if_neg fun h => hne h.1)
  · rw [hm]
    exact length_sessions_takeIn n k p p

/-- The verdict that is awaited settles the session. Nothing is written where nothing waits. -/
theorem isSettled_of_consent (h : n.AwaitsVerdict up k p conn) :
    let m := n.step (Chain.standard settings) (.receive conn
      (Stanza.resultReply p.peer p.own .valid none))
    m.IsSettled k p ∧ ∀ j, n.HasOwnConn j → (n.session j).waiting = [] →
      m.writtenOn (n.session j).conn = n.writtenOn (n.session j).conn := by
  intro m
  have hm : m = n.grant k (·.dropKeyRequest p.peer) p k :=
    step_receive_consent hn settings hfind hp h.request
  rw [hm]
  have hnote := Session.isNote_dropKeyRequest p.peer
  exact ⟨isSettled_grant hkeeps hnote (hn.live conn k hfind).1 h.toRests,
    fun j hown hempty => writtenOn_grant hnote hown hempty⟩

/-- A key that a peer presents is asked about over a new relay, where the question waits. -/
theorem verifies_of_key {key : String} {relay : ConnId} (h : n.Rests up k conn)
    (hrole : (n.session k).role = .inbound) (hpair : (n.session k).pair = some p)
    (hlax : n.directory.requiresTls p.own = false) (hkey : Text.trim key = key) (hblank : key ≠ "")
    (hnone : n.carriers p = []) (hconn : (Transport.connect n.transport p).1 = .ok relay)
    (hup : up (Transport.connect n.transport p).2 relay) (hne : relay ≠ conn) :
    let m := n.step (Chain.standard settings) (.receive conn (Stanza.key p.peer p.own key))
    let r := n.sessions.length
    m.Verifies up k p (n.session k).streamId conn ∧
      (∃ ident, m.session r =
        (((Session.opened relay p (some p.peer) ident).join p).addVerifyRequest
          p.peer (n.session k).streamId).enqueue
          (Stanza.verifyRequest p.own p.peer (n.session k).streamId key)) ∧
      m.sessions.length = r + 1 ∧ m.find? relay = some r ∧ up m.transport relay ∧
      m.log = n.log ++ [.connect p (some relay)] := by
  intro m r
  have hk := (hn.live conn k hfind).1
  let awaiting := (n.takeIn k p p).alter k (·.setPhase .awaitingVerify)
  have hm : m = (awaiting.dial p (some p.peer) relay).noteQuestion r p (n.session k).streamId key :=
    step_receive_key_over_relay hn settings hfind hp hpair hlax hkey hblank hnone hconn
      (hkeeps.isOpen hup)
  have hlength : awaiting.sessions.length = r := by simp [awaiting, r]
  have htransport : awaiting.transport = n.transport := transport_takeIn n k p p
  have hr : r < (awaiting.dial p (some p.peer) relay).sessions.length := by
    rw [length_sessions_dial, hlength]
    exact Nat.lt_succ_self r
  -- The session that presented the key is untouched by the relay.
  have hpresented : ∀ {α : Type} (view : Session → α),
      (∀ (s : Session) (phase : Phase), view { s with phase := phase } = view s) →
      view (m.session k) = view ((n.takeIn k p p).session k) := by
    intro α view hphase
    rw [hm, session_noteQuestion, if_neg fun h => Nat.ne_of_lt hk h.1, session_dial, hlength,
      if_neg (Nat.ne_of_lt hk)]
    exact view_session_alter view (Session.view_setPhase view hphase _) _ k k
  have hjoined : ((n.takeIn k p p).session k) = ((n.session k).adoptPair p).join p := by
    rw [session_takeIn, if_pos ⟨rfl, hk⟩, if_pos hrole]
  have htaken := h.takeIn k p p
  have hconn' := (hpresented Session.conn fun _ _ => rfl).trans htaken.ofConn
  have hasked : m.session r = (((Session.opened relay p (some p.peer)
      awaiting.nextIdentifier).join p).addVerifyRequest p.peer (n.session k).streamId).enqueue
        (Stanza.verifyRequest p.own p.peer (n.session k).streamId key) := by
    rw [hm, session_noteQuestion, if_pos ⟨rfl, hr⟩, session_dial, hlength, if_pos rfl]
  have hup' : up m.transport conn := by
    rw [hm, transport_noteQuestion, transport_dial, htransport]
    exact hkeeps.connect h.isUp hconn hne
  refine ⟨⟨⟨hconn', ?_, ?_, hup'⟩, ?_, ?_, ?_⟩, ⟨awaiting.nextIdentifier, hasked⟩, ?_, ?_, ?_, ?_⟩
  · exact (hpresented Session.isClosing fun _ _ => rfl).trans htaken.isClosing
  · exact (hpresented Session.waiting fun _ _ => rfl).trans htaken.waiting
  · rw [hpresented Session.role fun _ _ => rfl, hjoined]
    exact hrole
  · rw [hpresented Session.streamId fun _ _ => rfl, hjoined]
    rfl
  · rw [hpresented Session.joined fun _ _ => rfl, hjoined]
    exact List.mem_insert_self
  · rw [hm, length_sessions_noteQuestion, length_sessions_dial, hlength]
  · rw [hm, find?_noteQuestion, find?_dial_self, hlength]
  · rw [hm, transport_noteQuestion, transport_dial, htransport]
    exact hup
  · have houtcome : (awaiting.connect p).1 = .ok relay := by
      rw [← htransport] at hconn
      exact hconn
    have hlog : awaiting.log = n.log := log_takeIn n k p p
    rw [hm, log_noteQuestion, log_dial, houtcome, hlog]
    rfl

/-- The answer that is awaited settles the session on which the key was presented, and is the only
thing that is said there. The relay closes, and nothing more is said on it. -/
theorem isSettled_of_confirmation {j : SessionKey} {id : String} {presented : ConnId}
    (h : n.AwaitsAnswer up k p id conn) (hverifies : n.Verifies up j p id presented)
    (htarget : n.incomingByStream? p id = some j) (hj : n.HasOwnConn j) (hk : n.HasOwnConn k) :
    let m := n.step (Chain.standard settings) (.receive conn
      (Stanza.verifyReply p.peer p.own id true))
    m.IsSettled j p ∧ ((m.session k).isRelay ∧ (m.session k).isClosing) ∧
      m.writtenOn presented =
        n.writtenOn presented ++ [Stanza.resultReply p.own p.peer .valid none] ∧
      m.writtenOn conn = n.writtenOn conn := by
  intro m
  have hne : j ≠ k := by
    rintro rfl
    exact absurd (h.role.symm.trans hverifies.role) nofun
  let trusting := n.grant k (·.dropVerifyRequest p.peer id) p j
  let said := trusting.reply j (Stanza.resultReply p.own p.peer .valid none)
  have hm : m = said.stop k false :=
    step_receive_confirmation hn settings hfind hp h.role h.isRelay h.request htarget
  have hview : ∀ {α : Type} (view : Session → α), (∀ s, view (s.adoptPair p) = view s) →
      (∀ s, view (s.join p) = view s) → (∀ s, view (s.markTrusted p) = view s) →
      (∀ s, view s.clearQueue = view s) → (∀ s, view (s.dropVerifyRequest p.peer id) = view s) →
      ∀ i, view (trusting.session i) = view (n.session i) :=
    fun view hadopt hjoin hmark hqueue hdrop =>
      view_session_grant view hadopt hjoin hmark hqueue hdrop n k j
  have hconn := hview Session.conn (fun _ => rfl) (fun _ => rfl) (fun _ => rfl) (fun _ => rfl)
    fun _ => rfl
  have hopen := hview Session.isClosing (fun _ => rfl) (fun _ => rfl) (fun _ => rfl) (fun _ => rfl)
    (fun _ => rfl) k
  have hisRelay := hview Session.isRelay (fun _ => rfl) (fun _ => rfl) (fun _ => rfl)
    (fun _ => rfl) (fun _ => rfl) k
  -- The relay and the connection of the peer are two, so the end of one does not touch the other.
  have hother : conn ≠ presented := fun heq =>
    hne (hk.2 j hj.1 (hverifies.ofConn.trans (heq.symm.trans h.ofConn.symm)))
  have hnote := Session.isNote_dropVerifyRequest p.peer id
  have hsettled : trusting.IsSettled j p := isSettled_grant hkeeps hnote hj.1 hverifies.toRests
  have hup : up trusting.transport presented := up_grant hkeeps hnote hverifies.toRests
  have hwrittenOn : ∀ i, n.HasOwnConn i → (n.session i).waiting = [] →
      trusting.writtenOn (n.session i).conn = n.writtenOn (n.session i).conn :=
    fun i hown hempty => writtenOn_grant hnote hown hempty
  have hsession : m.session j = trusting.session j := by
    rw [hm, session_stop, if_neg fun h => hne h.1]
    rfl
  have hstill : up m.transport presented := by
    rw [hm]
    refine up_stop hkeeps (hkeeps.write hup _ _) ?_ false
    exact fun heq => hother (h.ofConn.symm.trans ((hconn k).symm.trans heq))
  have hsaid : ∀ other, m.writtenOn other = trusting.writtenOn other ++
      if presented = other then [Stanza.resultReply p.own p.peer .valid none] else [] := by
    rw [hm]
    exact writtenOn_reply_stop hkeeps ((hconn j).trans hverifies.ofConn) hup _ k
  have hlong : k < said.sessions.length := by
    have hsame := length_sessions_grant n k (·.dropVerifyRequest p.peer id) p j
    exact hsame ▸ hk.1
  have hrelay : m.session k = (trusting.session k).beginClose := by
    rw [hm, session_stop, if_pos ⟨rfl, hlong, hopen.trans h.isClosing⟩]
    rfl
  have hkept : ∀ s : Session, s.beginClose.isRelay = s.isRelay := fun _ => rfl
  refine ⟨hsettled.of_eq hsession ?_ ?_, ⟨?_, ?_⟩, ?_, ?_⟩
  · rw [hm, registry_stop]
    rfl
  · rw [hsession, hconn, hverifies.ofConn]
    exact hkeeps.isOpen hstill
  · rw [hrelay, hkept, hisRelay]
    exact h.isRelay
  · rw [hrelay]
    rfl
  · rw [hsaid, if_pos rfl, ← hverifies.ofConn, hwrittenOn j hj hverifies.waiting]
  · rw [hsaid, if_neg hother.symm, List.append_nil, ← h.ofConn, hwrittenOn k hk h.waiting]

end Verdict

end Node

end Federation
