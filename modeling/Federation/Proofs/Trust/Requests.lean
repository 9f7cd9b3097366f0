import Federation.Proofs.Node.Asking
import Federation.Proofs.Trust.OwnKeys
import Federation.Proofs.Trust.PresentedKeys

/-!
How requests come about. A key or a question becomes outstanding on a session only as its stanza is
put at the end of the queue there.
-/

namespace Federation

/-- What may be outstanding on a session: whether a key of ours is right that was presented to a
domain, or whether one is that a domain presented on a stream. -/
inductive Request where
  | key (domain : String)
  | question (domain id : String)

namespace Request

def IsDue (s : Session) : Request → Prop
  | .key domain => s.hasKeyRequest domain
  | .question domain id => s.hasVerifyRequest domain id

inductive Spells : Request → Element → Prop
  | key (own domain key : String) :
      Spells (.key domain) (Stanza.key own (Text.lower domain) key)
  | question (own domain id key : String) :
      Spells (.question domain id) (Stanza.verifyRequest own (Text.lower domain) id key)

end Request

namespace Node

variable {τ : Type}

/-- A stanza is put at the end of the queue of a session. It waits there, or the queue is written up
to it. -/
def Queues (n m : Node τ) (k : SessionKey) (stanza : Element) : Prop :=
  (m.session k).waiting = (n.session k).waiting ++ [stanza] ∨
    ∃ added accepted, m.log = n.log ++ added ∧ Effect.write (n.session k).conn
      ((n.session k).waiting ++ [stanza]) accepted ∈ added

variable [Transport τ] {n m : Node τ} {k : SessionKey} {stanza : Element}

omit [Transport τ] in
/-- What was queued stays so while more is written. -/
theorem Queues.append (h : Queues n m k stanza) {m' : Node τ}
    (hsession : m'.session k = m.session k) {more : List Effect} (hlog : m'.log = m.log ++ more) :
    Queues n m' k stanza := by
  rcases h with hwaiting | ⟨added, accepted, hadded, hwrite⟩
  · exact Or.inl (by rw [hsession, hwaiting])
  · refine Or.inr ⟨added ++ more, accepted, ?_, List.mem_append_left _ hwrite⟩
    rw [hlog, hadded, List.append_assoc]

omit [Transport τ] in
theorem Queues.of_eq {n' : Node τ} (h : Queues n' m k stanza)
    (hwaiting : (n'.session k).waiting = (n.session k).waiting)
    (hconn : (n'.session k).conn = (n.session k).conn) (hlog : n'.log = n.log) :
    Queues n m k stanza := by
  rw [Queues, hwaiting, hconn, hlog] at h
  exact h

/-- A question is put at the end of the queue of the session that carries it. -/
theorem queues_ask {r : SessionKey} (hr : r < n.sessions.length) (p : DomainPair)
    (id key : String) :
    Queues n (n.ask r p id key) r (Stanza.verifyRequest p.own p.peer id key) := by
  cases hid : (n.session r).peerStreamId with
  | none =>
    rw [ask_of_unannounced p id key hid]
    refine Or.inl ?_
    rw [session_noteQuestion_self hr]
    rfl
  | some announced =>
    obtain ⟨accepted, hlog⟩ := log_ask_of_announced p id key hr (by rw [hid]; rfl)
    exact Or.inr ⟨_, accepted, hlog, List.mem_singleton_self _⟩

/-- Nothing waits on a new connection and its peer has announced no stream, so that a question which
is put there waits alone. -/
theorem queues_ask_of_new (hlt : n.sessions.length < m.sessions.length)
    (hwaiting : (m.session n.sessions.length).waiting = [])
    (hid : (m.session n.sessions.length).peerStreamId = none)
    (hsame : ∀ j, j ≠ n.sessions.length → m.session j = n.session j) (p : DomainPair)
    (id key : String) (k : SessionKey) :
    ((m.ask n.sessions.length p id key).session k).verifyRequests = (n.session k).verifyRequests ∨
      Queues n (m.ask n.sessions.length p id key) k
        (Stanza.verifyRequest p.own p.peer id key) := by
  by_cases hk : k = n.sessions.length
  · subst hk
    refine Or.inr (Or.inl ?_)
    rw [ask_of_unannounced p id key hid, session_noteQuestion_self hlt,
      session_of_length_le (Nat.le_refl _)]
    exact congrArg (· ++ _) hwaiting
  · rw [session_ask_of_ne m _ p id key hk, hsame k hk]
    exact Or.inl rfl

/-- A request is recorded on a session only with a question at the end of its queue. -/
theorem requestVerification_queues (hn : n.HasCanonicalEntries) (hbound : n.Bound)
    {pair p : DomainPair}
    (hcheck : DomainPair.checked pair.own pair.peer n.directory.isServed = .ok p)
    (id key : String) (k : SessionKey) :
    ((n.requestVerification pair id key).2.session k).verifyRequests =
        (n.session k).verifyRequests ∨
      Queues n (n.requestVerification pair id key).2 k
        (Stanza.verifyRequest p.own p.peer id key) := by
  have hp : p.IsCanonical n.directory.isServed := DomainPair.isCanonical_of_checked hcheck
  rw [requestVerification_eq hn hcheck]
  rcases verifier_cases hn hp with
    ⟨r, husable, hverifier⟩ | ⟨-, ⟨e, -, hverifier⟩ | ⟨conn, -, hopened⟩⟩
  · simp only [hverifier]
    by_cases hk : k = r
    · subst hk
      obtain ⟨-, cid, hcid, -⟩ := (Carries.usable husable).peer hbound
      exact Or.inr (queues_ask (n := n.withEntry p) (lt_length_of_pair hcid) p id key)
    · rw [session_ask_of_ne _ _ p id key hk]
      exact Or.inl rfl
  · simp only [hverifier]
    exact Or.inl rfl
  · let before := ((n.withEntry p).connect p).2
    let opened := before.establish p (some p.peer) conn
    have hlength : n.sessions.length < opened.sessions.length :=
      Nat.lt_of_lt_of_eq (Nat.lt_succ_self _) (length_sessions_establish _ _ _ _).symm
    have hnew : opened.session n.sessions.length =
        (Session.opened conn p (some p.peer) before.nextIdentifier).join p :=
      (session_establish before p (some p.peer) conn n.sessions.length).trans (if_pos rfl)
    have hold : ∀ j, j ≠ n.sessions.length → opened.session j = n.session j := fun j hj =>
      (session_establish before p (some p.peer) conn j).trans (if_neg hj)
    rcases hopened with hverifier | hverifier
    · simp only [hverifier]
      exact queues_ask_of_new (m := opened) hlength (by rw [hnew]; rfl) (by rw [hnew]; rfl) hold
        p id key k
    · have hfind : opened.find? conn = some n.sessions.length := find?_register_self _ _ _
      have hdead := session_connectionClosed hfind
      simp only [hverifier]
      refine queues_ask_of_new (m := opened.connectionClosed conn) ?_ ?_ ?_ (fun j hj => ?_)
        p id key k
      · rw [length_sessions_connectionClosed hfind]
        exact hlength
      · rw [hdead, if_pos ⟨rfl, hlength⟩]
        rfl
      · rw [hdead, if_pos ⟨rfl, hlength⟩, hnew]
        rfl
      · rw [hdead, if_neg fun h => hj h.1]
        exact hold j hj

/-- So it is with the question about a key that a peer presents. -/
theorem receiveKey_queues (hn : n.HasCanonicalEntries) (hbound : n.Bound) {r : SessionKey}
    {pair p : DomainPair}
    (hcheck : DomainPair.checked pair.own pair.peer n.directory.isServed = .ok p)
    (heard : Element) (k : SessionKey) :
    ((n.receiveKey r pair heard).session k).verifyRequests = (n.session k).verifyRequests ∨
      Queues n (n.receiveKey r pair heard) k (Stanza.verifyRequest p.own p.peer
        (n.session r).streamId (Text.trim (heard.cdata.getD ""))) := by
  let key := Text.trim (heard.cdata.getD "")
  let noted := n.alter r (·.setPhase .awaitingVerify)
  let asked := (noted.requestVerification pair (n.session r).streamId key).2
  have hnoted : ∀ {α : Type} (view : Session → α),
      (∀ (s : Session) (phase : Phase), view { s with phase := phase } = view s) →
      view (noted.session k) = view (n.session k) := fun view hphase =>
    view_session_alter view (Session.view_setPhase view hphase .awaitingVerify) n r k
  have hmoves : Moves (.heard r heard) n noted := .single (.remark r _ (.phase _ rfl))
  have hasked : (asked.session k).verifyRequests = (n.session k).verifyRequests ∨
      Queues n asked k (Stanza.verifyRequest p.own p.peer (n.session r).streamId key) := by
    rcases requestVerification_queues (hmoves.hasCanonicalEntries hn) (hmoves.bound hbound) hcheck
      (n.session r).streamId key k with hsame | hqueues
    · exact Or.inl (hsame.trans (hnoted Session.verifyRequests fun _ _ => rfl))
    · exact Or.inr (hqueues.of_eq (hnoted Session.waiting fun _ _ => rfl)
        (hnoted Session.conn fun _ _ => rfl) rfl)
  rcases n.receiveKey_cases r pair heard with ⟨-, heq⟩ | ⟨-, -, heq⟩ | ⟨-, -, heq | heq⟩
  · rw [heq]
    exact Or.inl rfl
  · rw [heq]
    exact Or.inl (view_session_stop _ Session.verifyRequests (fun _ => rfl) r k false)
  · rw [heq]
    exact hasked
  · rw [heq]
    obtain ⟨_, hlog⟩ := log_refuseKey asked r pair "remote-server-not-found"
    exact hasked.imp_right fun hqueues => hqueues.append rfl hlog

/-- So it is with a whole step that hears such a key. -/
theorem step_receive_key_queues (hn : n.WellFormed) (hbound : n.Bound) (settings : Settings)
    {conn : ConnId} {r : SessionKey} {heard : Element} {p : DomainPair}
    (hfind : n.find? conn = some r) (hkind : DialbackKind.of? heard = some .result)
    (htype : heard.attr? "type" = none) (hnamed : n.directory.pairNamed? heard = some p)
    (k : SessionKey) :
    ((n.step (Chain.standard settings) (.receive conn heard)).session k).verifyRequests =
        (n.session k).verifyRequests ∨
      Queues n (n.step (Chain.standard settings) (.receive conn heard)) k
        (Stanza.verifyRequest p.own p.peer (n.session r).streamId
          (Text.trim (heard.cdata.getD ""))) := by
  let taken := n.takeIn r heard.spelled p
  have hview : ∀ {α : Type} (view : Session → α),
      (∀ s, view (s.adoptPair heard.spelled) = view s) → (∀ s, view (s.join p) = view s) →
      ∀ j, view (taken.session j) = view (n.session j) :=
    fun view hadopt hjoin j => view_session_takeIn n r _ p view hadopt hjoin j
  have htaken : Moves (.heard r heard) n taken := moves_takeIn_of_heard hn hfind hkind hnamed
  have hcheck : DomainPair.checked heard.spelled.own heard.spelled.peer
      taken.directory.isServed = .ok p := by
    rw [Moves.directory_eq htaken]
    exact (checked_of_pairNamed? hnamed).2.2
  have hqueues := receiveKey_queues (r := r) (Moves.hasCanonicalEntries htaken hn.entries)
    (Moves.bound htaken hbound) hcheck heard k
  rw [hview Session.streamId (fun _ => rfl) (fun _ => rfl) r,
    ← step_receive_key hn settings hfind hkind htype hnamed] at hqueues
  rcases hqueues with hsame | hqueues
  · exact Or.inl (hsame.trans (hview Session.verifyRequests (fun _ => rfl) (fun _ => rfl) k))
  · exact Or.inr (hqueues.of_eq (hview Session.waiting (fun _ => rfl) (fun _ => rfl) k)
      (hview Session.conn (fun _ => rfl) (fun _ => rfl) k) (log_takeIn n r heard.spelled p))

/-- A request that was not outstanding is one that the event makes. -/
theorem exists_asks_of_hasVerifyRequest (hn : n.WellFormed) (settings : Settings) {event : Event}
    {d id : String} (hnot : ¬ (n.session k).hasVerifyRequest d id)
    (hnew : ((n.step (Chain.standard settings) event).session k).hasVerifyRequest d id) :
    ∃ p key, Asks n p id key (n.cause event) ∧ Text.lower d = p.peer := by
  obtain ⟨n', m', hbefore, hmove, -, hnot', hnew'⟩ := Moves.exists_move
    (P := fun n => (n.session k).hasVerifyRequest d id) (step_moves hn settings event) hnot hnew
  have hmem : (Text.lower d, id) ∈ (m'.session k).verifyRequests := by
    simpa [Session.hasVerifyRequest] using hnew'
  rcases (hmove.change k).mem_verifyRequests hmem with hold | ⟨p, key, hasks, -, hd⟩
  · exact absurd (by simpa [Session.hasVerifyRequest] using hold) hnot'
  · have hasks' := hasks.before hn hbefore
    rw [hasks'.concerns.isCanonical.lower_peer] at hd
    exact ⟨p, key, hasks', hd⟩

/-- A request that was not outstanding is recorded with a question at the end of the queue. -/
theorem queues_of_hasVerifyRequest (hn : n.WellFormed) (hbound : n.Bound) (settings : Settings)
    {event : Event} {d id : String} (hnot : ¬ (n.session k).hasVerifyRequest d id)
    (hnew : ((n.step (Chain.standard settings) event).session k).hasVerifyRequest d id) :
    (∀ pair stanza, event ≠ .send pair stanza) ∧ ∃ own key,
      Queues n (n.step (Chain.standard settings) event) k
        (Stanza.verifyRequest own (Text.lower d) id key) := by
  obtain ⟨p, key, hasks, hd⟩ := exists_asks_of_hasVerifyRequest hn settings hnot hnew
  have hchanged : ((n.step (Chain.standard settings) event).session k).verifyRequests ≠
      (n.session k).verifyRequests := by
    intro hsame
    unfold Session.hasVerifyRequest at hnot hnew
    rw [hsame] at hnew
    exact hnot hnew
  rw [hd]
  generalize hcause : n.cause event = c at hasks
  cases hasks with
  | caller pair hcheck =>
    obtain rfl := eq_of_cause_eq_call hcause
    refine ⟨fun _ _ => Event.noConfusion, p.own, key, ?_⟩
    rcases requestVerification_queues hn.entries hbound hcheck id key k with hsame | hqueues
    · exact absurd hsame hchanged
    · exact hqueues
  | presented r heard hr hkind htype hnamed hid hkey =>
    obtain ⟨conn, rfl, hfind⟩ := exists_of_cause_eq_heard hcause
    refine ⟨fun _ _ => Event.noConfusion, p.own, key, ?_⟩
    rcases step_receive_key_queues hn hbound settings hfind hkind htype hnamed k with
      hsame | hqueues
    · exact absurd hsame hchanged
    · rwa [hid, hkey] at hqueues

/-- Features lead to a key or to no request at all. -/
theorem receiveFeatures_cases (hn : n.HasCanonicalEntries) (workaround : Bool)
    (features : Element) :
    (n.receiveFeatures workaround k features).2 = n.presentKey k ∨
      ((n.receiveFeatures workaround k features).2.session k).keyRequests =
        (n.session k).keyRequests := by
  have hkept : ∀ (m : Node τ) (condition : String), (m.session k).keyRequests =
      (n.session k).keyRequests →
      ((m.failStream k condition true).session k).keyRequests = (n.session k).keyRequests :=
    fun m condition hm => (view_session_stop _ Session.keyRequests (fun _ => rfl) k k true).trans hm
  unfold receiveFeatures
  simp only [entry_eq hn]
  split
  · exact Or.inr rfl
  cases (n.session k).pair with
  | none => exact Or.inr rfl
  | some pair =>
    simp only
    split
    · exact Or.inr (view_session_alter Session.keyRequests (f := (·.setPhase .tlsDecision))
        (Session.view_setPhase _ (fun _ _ => rfl) _) n k k)
    · split
      · refine Or.inr ?_
        cases DomainPair.checked pair.own pair.peer n.directory.isServed with
        | error e => exact hkept _ _ rfl
        | ok p =>
          simp only [authenticate]
          rw [view_session_flushPair Session.keyRequests fun _ => rfl, session_trust]
          split <;> exact view_session_alter Session.keyRequests
            (f := (·.setMethod certificateMethod)) (fun _ => rfl) (n.withEntry p) k k
      · split
        · exact Or.inr (hkept _ _ rfl)
        · exact Or.inl rfl

/-- A key that was not outstanding is one that the event may present. What it is made of was known
when the event began, or its header told it. -/
theorem exists_mayPresent_of_hasKeyRequest (hn : n.WellFormed) (hbound : n.Bound)
    (settings : Settings) {event : Event} {d : String} (hnot : ¬ (n.session k).hasKeyRequest d)
    (hnew : ((n.step (Chain.standard settings) event).session k).hasKeyRequest d) :
    ∃ (n' : Node τ) (p : DomainPair) (secret : String),
      MayPresent n' k p (n.cause event) ∧ Text.lower d = Text.lower p.peer ∧
      ((n.session k).peerStreamId.isSome ∨
        ∃ header, n.cause event = .header k header ∧ header.id.isSome) ∧
      (k < n.sessions.length → (n.session k).role = .outbound ∧ (n.session k).pair = some p ∧
        p.IsCanonical n.directory.isServed ∧ (n.session k).isRelay = false ∧
        n.directory.secretFor p.own = .ok secret) := by
  obtain ⟨n', m', hbefore, hmove, -, hnot', hnew'⟩ := Moves.exists_move
    (P := fun n => (n.session k).hasKeyRequest d) (step_moves hn settings event) hnot hnew
  have hmem : Text.lower d ∈ (m'.session k).keyRequests := by
    simpa [Session.hasKeyRequest] using hnew'
  rcases (hmove.change k).mem_keyRequests hmem with
    hold | ⟨p, -, -, hmay, hrole', hpair', hd, hrelay', hid', ⟨secret, hsecret'⟩, -⟩
  · exact absurd (by simpa [Session.hasKeyRequest] using hold) hnot'
  refine ⟨n', p, secret, hmay, hd, Moves.isSome_peerStreamId hbefore hid', fun hk => ?_⟩
  have hidentity := Moves.identity_eq hbefore hk
  have hrole := (Session.role_eq hidentity).symm.trans hrole'
  obtain ⟨opened, hopened, hcanonical, -⟩ := hbound.opened k hk hrole
  have hsame : opened = p := by
    have hkeep := (Moves.pair_eq hbefore hrole hopened).2
    simpa [hpair'] using hkeep.symm
  rw [Moves.directory_eq hbefore] at hsecret'
  exact ⟨hrole, hsame ▸ hopened, hsame ▸ hcanonical,
    (Session.isRelay_eq hidentity).symm.trans hrelay', hsecret'⟩

/-- A key that was not outstanding becomes so at the end of the queue. -/
theorem queues_of_hasKeyRequest (hn : n.WellFormed) (hbound : n.Bound) (settings : Settings)
    {event : Event} {d : String} (hnot : ¬ (n.session k).hasKeyRequest d)
    (hnew : ((n.step (Chain.standard settings) event).session k).hasKeyRequest d) :
    (∀ pair stanza, event ≠ .send pair stanza) ∧ ∃ own key,
      Queues n (n.step (Chain.standard settings) event) k
        (Stanza.key own (Text.lower d) key) := by
  obtain ⟨n', p, secret, hmay, hd, hknown, hback⟩ :=
    exists_mayPresent_of_hasKeyRequest hn hbound settings hnot hnew
  generalize hcause : n.cause event = c at hmay hknown
  cases hmay with
  | header header hversion =>
    obtain ⟨conn, rfl, hfind⟩ := exists_of_cause_eq_header hcause
    obtain ⟨hrole, hpair, hcanonical, hrelay, hsecret⟩ := hback (hn.live conn k hfind).1
    have hannounced : header.id.isSome ∨ (n.session k).peerStreamId.isSome := by
      rcases hknown with hold | ⟨_, hheader, hid⟩
      · exact Or.inr hold
      · cases hheader
        exact Or.inl hid
    obtain ⟨accepted, key, hlog⟩ := log_step_header_without_version settings hfind hrole hversion
      hannounced hpair hrelay hsecret
    rw [hd, hcanonical.lower_peer]
    exact ⟨fun _ _ => Event.noConfusion, p.own, key,
      Or.inr ⟨_, accepted, hlog, List.mem_singleton_self _⟩⟩
  | features stanza hkind hfeatures htls =>
    obtain ⟨conn, rfl, hfind⟩ := exists_of_cause_eq_heard hcause
    obtain ⟨hrole, hpair, hcanonical, hrelay, hsecret⟩ := hback (hn.live conn k hfind).1
    have hid : (n.session k).peerStreamId.isSome := by
      rcases hknown with hold | ⟨_, hheader, -⟩
      · exact hold
      · cases hheader
    obtain ⟨id, hid⟩ := Option.isSome_iff_exists.mp hid
    rw [step_receive_features settings hfind hfeatures hrole] at hnew ⊢
    rcases receiveFeatures_cases (k := k) hn.entries settings.workaround stanza with heq | hsame
    · obtain ⟨accepted, hlog⟩ := log_presentKey hid hpair hrelay hsecret
      rw [heq, hd, hcanonical.lower_peer]
      exact ⟨fun _ _ => Event.noConfusion, p.own, _,
        Or.inr ⟨_, accepted, hlog, List.mem_singleton_self _⟩⟩
    · rw [Session.hasKeyRequest, hsame] at hnew
      exact absurd hnew hnot

/-- No request becomes outstanding otherwise. -/
theorem queues_of_isDue (hn : n.WellFormed) (hbound : n.Bound) (settings : Settings)
    (event : Event) (q : Request) (hnot : ¬ q.IsDue (n.session k))
    (hnew : q.IsDue ((n.step (Chain.standard settings) event).session k)) :
    (∀ pair stanza, event ≠ .send pair stanza) ∧ ∃ stanza, q.Spells stanza ∧
      Queues n (n.step (Chain.standard settings) event) k stanza := by
  cases q with
  | key domain =>
    obtain ⟨hevent, own, key, hqueues⟩ := queues_of_hasKeyRequest hn hbound settings hnot hnew
    exact ⟨hevent, _, .key own domain key, hqueues⟩
  | question domain id =>
    obtain ⟨hevent, own, key, hqueues⟩ := queues_of_hasVerifyRequest hn hbound settings hnot hnew
    exact ⟨hevent, _, .question own domain id key, hqueues⟩

end Node

end Federation
