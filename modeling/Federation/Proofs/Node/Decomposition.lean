import Federation.Proofs.Node.Moves

/-!
The operations of a node as moves, from the small ones to the step on an event.
-/

namespace Federation.Node

open Relation

variable {τ : Type}

theorem HasCanonicalEntries.withEntry {n : Node τ} (hn : n.HasCanonicalEntries) {p : DomainPair}
    (hp : p.IsCanonical n.directory.isServed) : (n.withEntry p).HasCanonicalEntries := by
  intro q hq
  rcases (Registry.isSome_get?_ensure n.registry p q).mp hq with rfl | hold
  · exact hp
  · exact hn q hold

theorem entry_eq {n : Node τ} (hn : n.HasCanonicalEntries) (pair : DomainPair) :
    n.entry pair =
      match DomainPair.checked pair.own pair.peer n.directory.isServed with
      | .error e => (.error e, n)
      | .ok p => (.ok p, n.withEntry p) := by
  rw [entry, hn.canonical_eq]
  cases DomainPair.checked pair.own pair.peer n.directory.isServed <;> rfl

theorem incomingByStream?_alter (n : Node τ) (k : SessionKey) {f : Session → Session}
    (hf : ∀ s, (f s).streamId = s.streamId) (p : DomainPair) (id : String) :
    (n.alter k f).incomingByStream? p id = n.incomingByStream? p id := by
  have hkeys : (n.alter k f).incomingKeys p = n.incomingKeys p := rfl
  unfold incomingByStream?
  rw [hkeys]
  congr 1
  funext j
  rw [view_session_alter Session.streamId hf]

/-- A link of a pair stays one when a session becomes trusted for it. -/
theorem mem_incomingKeys_trust {n : Node τ} {p : DomainPair} {k j : SessionKey}
    (h : k ∈ n.incomingKeys p) : k ∈ (n.trust p j).incomingKeys p := by
  have haddLink : ∀ f : TrustEntry → TrustEntry, (∀ e, (f e).pair = e.pair) →
      (∀ e link, link ∈ e.incoming → link ∈ (f e).incoming) →
      (n.addLink p j).registry = n.registry.alter p f →
      k ∈ (n.trust p j).incomingKeys p := by
    intro f hf hkeep halter
    unfold incomingKeys at h ⊢
    rw [registry_trust, halter, Registry.get?_alter_self (f := TrustEntry.authenticate)
      (fun _ => rfl), Registry.get?_alter_self hf]
    cases hget : n.registry.get? p with
    | none => simp [hget] at h
    | some e =>
      simp only [hget, List.mem_map] at h
      obtain ⟨link, hlink, heq⟩ := h
      exact List.mem_map.mpr ⟨link, hkeep e link hlink, heq⟩
  cases hrole : (n.session j).role with
  | inbound =>
    refine haddLink (·.addIncoming (n.link j)) (fun _ => rfl)
      (fun e link hlink => Link.mem_insert_of_mem hlink) ?_
    simp only [addLink, hrole]
    rfl
  | outbound =>
    refine haddLink (·.addOutgoing (n.link j)) (fun _ => rfl) (fun e link hlink => hlink) ?_
    simp only [addLink, hrole]
    rfl

theorem isAuthenticated_trust {n : Node τ} {p : DomainPair}
    (hentry : (n.registry.get? p).isSome) (k : SessionKey) :
    (n.trust p k).registry.isAuthenticated p := by
  obtain ⟨f, hf, haddLink⟩ := registry_addLink n p k
  obtain ⟨e, he⟩ := Option.isSome_iff_exists.mp hentry
  rw [Registry.isAuthenticated, registry_trust, haddLink,
    Registry.get?_alter_self (f := TrustEntry.authenticate) (fun _ => rfl),
    Registry.get?_alter_self hf, he]
  rfl

variable [Transport τ] {n : Node τ} {c : Cause}

theorem moves_failStream (k : SessionKey) (condition : String) (force : Bool) :
    Moves c n (n.failStream k condition force) :=
  (ReflTransGen.single (Move.say k _ (.complaint k condition))).tail (.stop k force)

omit [Transport τ] in
/-- A change of a session that has nothing to do with TLS leaves the reasons to present a key. -/
theorem MayPresent.alter {k : SessionKey} {p : DomainPair} (h : MayPresent n k p c)
    {f : Session → Session} (hf : ∀ s, (f s).tlsActive = s.tlsActive) (j : SessionKey) :
    MayPresent (n.alter j f) k p c := by
  cases h with
  | header header hversion => exact .header header hversion
  | features stanza hkind hfeatures htls =>
    refine .features stanza hkind hfeatures fun hdemands => ?_
    rw [view_session_alter Session.tlsActive hf]
    exact htls hdemands

theorem moves_presentKey {k : SessionKey}
    (hmay : ∀ p, (n.session k).pair = some p → MayPresent n k p c)
    (hrole : (n.session k).role = .outbound) : Moves c n (n.presentKey k) := by
  unfold presentKey
  cases hid : (n.session k).peerStreamId with
  | none => simpa only [hid] using moves_failStream k _ false
  | some id =>
    cases hpair : (n.session k).pair with
    | none => simpa only [hid, hpair] using moves_failStream k _ false
    | some pair =>
      cases hsecret : n.directory.secretFor pair.own with
      | error e => simpa only [hid, hpair, hsecret] using moves_failStream k _ false
      | ok secret =>
        have hmethod : Moves c n (n.alter k (·.setMethod dialbackMethod)) :=
          .single (.remark k _ (.method _))
        have hview : ∀ {α : Type} (view : Session → α),
            (∀ s, view (s.setMethod dialbackMethod) = view s) →
            view ((n.alter k (·.setMethod dialbackMethod)).session k) = view (n.session k) :=
          fun view hf => view_session_alter view hf n k k
        have hid' := (hview Session.peerStreamId fun _ => rfl).trans hid
        simp only [hid, hpair, hsecret]
        split
        · refine (hmethod.tail (.remark k _ (.phase _ rfl))).tail (.flush k (Or.inl ?_))
          rw [view_session_alter Session.peerStreamId
            (Session.view_setPhase _ (fun _ _ => rfl) _), hid']
          rfl
        · rename_i hrelay
          exact hmethod.tail (Move.offerKey (n := n.alter k (·.setMethod dialbackMethod)) k pair id
            secret ((hmay pair hpair).alter (f := (·.setMethod dialbackMethod)) (fun _ => rfl) k)
            ((hview Session.role fun _ => rfl).trans hrole)
            ((hview Session.pair fun _ => rfl).trans hpair)
            ((hview Session.isRelay fun _ => rfl).trans (by simpa using hrelay)) hid' hsecret)

theorem moves_flushIfUp (hgrant : c.MayGrant) {k : SessionKey} {p : DomainPair}
    (hk : k ∈ n.linkKeys p) (hauth : n.registry.isAuthenticated p) : Moves c n (n.flushIfUp k) := by
  unfold flushIfUp
  split
  · exact .refl
  · rename_i hclosing
    exact .single (.flush k (Or.inr ⟨hgrant, p, hk, hauth, by simpa using hclosing⟩))

theorem registry_flushIfUp (n : Node τ) (k : SessionKey) :
    (n.flushIfUp k).registry = n.registry := by
  unfold flushIfUp
  split
  · rfl
  · exact registry_flush n k

theorem registry_flushPair (n : Node τ) (p : DomainPair) :
    (n.flushPair p).registry = n.registry := by
  unfold flushPair
  induction n.linkKeys p generalizing n with
  | nil => rfl
  | cons k rest ih => rw [List.foldl_cons, ih, registry_flushIfUp]

theorem view_session_flushIfUp {α : Type} (view : Session → α)
    (hview : ∀ s, view s.clearQueue = view s) (n : Node τ) (k j : SessionKey) :
    view ((n.flushIfUp k).session j) = view (n.session j) := by
  unfold flushIfUp
  split
  · rfl
  · exact view_session_flush n view hview k j

theorem length_sessions_flushIfUp (n : Node τ) (k : SessionKey) :
    (n.flushIfUp k).sessions.length = n.sessions.length := by
  unfold flushIfUp
  split
  · rfl
  · exact length_sessions_flush n k

theorem view_session_flushPair {α : Type} (view : Session → α)
    (hview : ∀ s, view s.clearQueue = view s) (n : Node τ) (p : DomainPair) (j : SessionKey) :
    view ((n.flushPair p).session j) = view (n.session j) := by
  unfold flushPair
  induction n.linkKeys p generalizing n with
  | nil => rfl
  | cons k rest ih => rw [List.foldl_cons, ih, view_session_flushIfUp view hview]

theorem view_session_authenticate {α : Type} (view : Session → α) {p : DomainPair}
    (hqueue : ∀ s, view s.clearQueue = view s) (hjoin : ∀ s, view (s.join p) = view s)
    (hmark : ∀ s, view (s.markTrusted p) = view s) (n : Node τ) (k j : SessionKey) :
    view ((n.authenticate p k).session j) = view (n.session j) := by
  rw [authenticate, view_session_flushPair view hqueue]
  exact view_session_trust n p k view hjoin hmark j

theorem length_sessions_flushPair (n : Node τ) (p : DomainPair) :
    (n.flushPair p).sessions.length = n.sessions.length := by
  unfold flushPair
  induction n.linkKeys p generalizing n with
  | nil => rfl
  | cons k rest ih => rw [List.foldl_cons, ih, length_sessions_flushIfUp]

theorem length_sessions_authenticate (n : Node τ) (p : DomainPair) (k : SessionKey) :
    (n.authenticate p k).sessions.length = n.sessions.length := by
  rw [authenticate, length_sessions_flushPair, length_sessions_trust]

/-- Writing the queues of some links leaves the links as they are. -/
theorem moves_foldl_flushIfUp (hgrant : c.MayGrant) {p : DomainPair} {keys : List SessionKey}
    {n : Node τ} (hkeys : ∀ k ∈ keys, k ∈ n.linkKeys p) (hauth : n.registry.isAuthenticated p) :
    Moves c n (keys.foldl flushIfUp n) := by
  induction keys generalizing n with
  | nil => exact .refl
  | cons k rest ih =>
    have hregistry := registry_flushIfUp n k
    have hlinks : (n.flushIfUp k).linkKeys p = n.linkKeys p := by
      rw [linkKeys, linkKeys, hregistry]
    refine ReflTransGen.trans (moves_flushIfUp hgrant (hkeys k List.mem_cons_self) hauth) (ih ?_ ?_)
    · intro j hj
      rw [hlinks]
      exact hkeys j (List.mem_cons_of_mem k hj)
    · rwa [hregistry]

theorem moves_flushPair (hgrant : c.MayGrant) {p : DomainPair}
    (hauth : n.registry.isAuthenticated p) : Moves c n (n.flushPair p) :=
  moves_foldl_flushIfUp hgrant (fun _ hk => hk) hauth

theorem moves_receiveFeatures (hn : n.HasCanonicalEntries) (workaround : Bool) {k : SessionKey}
    {features : Element} (hkind : DialbackKind.of? features = none)
    (hfeatures : Stanza.isStreamFeatures features) (hrole : (n.session k).role = .outbound)
    (hlive : n.find? (n.session k).conn = some k) :
    Moves (.heard k features) n (n.receiveFeatures workaround k features).2 := by
  unfold receiveFeatures
  simp only [entry_eq hn]
  split
  · exact .refl
  · cases hpair : (n.session k).pair with
    | none => exact .refl
    | some pair =>
      simp only
      split
      · exact .single (.remark k _ (.phase _ rfl))
      · split
        · rename_i htrusted
          cases hcheck : DomainPair.checked pair.own pair.peer n.directory.isServed with
          | error e => exact moves_failStream k _ true
          | ok p =>
            have hentry := (Registry.isSome_get?_ensure n.registry p p).mpr (Or.inl rfl)
            have htrust : (n.session k).trust = .trusted := by
              simp only [Bool.and_eq_true, decide_eq_true_eq] at htrusted
              exact htrusted.1.1
            have hview : ∀ {α : Type} (view : Session → α),
                (∀ s, view (s.setMethod certificateMethod) = view s) →
                view (((n.withEntry p).alter k
                  (·.setMethod certificateMethod)).session k) = view (n.session k) :=
              fun view hf => view_session_alter view hf _ k k
            have hensure := Move.ensure p (Concerns.own k features pair hkind hrole hpair hcheck)
            have hmethod := Move.remark (n := (n.withEntry p))
              (c := .heard k features) k _ (.method certificateMethod)
            have hgrant := Move.grantCertificate
              (n := (n.withEntry p).alter k (·.setMethod certificateMethod))
              k features pair p hkind ((hview Session.role fun _ => rfl).trans hrole)
              ((hview Session.pair fun _ => rfl).trans hpair) hcheck
              ((hview Session.trust fun _ => rfl).trans htrust) hentry
              ((congrArg n.find? (hview Session.conn fun _ => rfl)).trans hlive)
            exact (((ReflTransGen.single hensure).tail hmethod).tail hgrant).trans
              (moves_flushPair (.features k features hfeatures) (isAuthenticated_trust hentry k))
        · split
          · exact moves_failStream k _ true
          · rename_i hguard
            refine moves_presentKey (fun p hp => ?_) hrole
            have hsame : p = pair := by simpa [hpair] using hp.symm
            subst hsame
            refine .features features hkind hfeatures fun hdemands => ?_
            simp only [demandsTls, Bool.and_eq_true, Bool.not_eq_true'] at hdemands hguard
            by_contra hinactive
            exact hguard ⟨⟨hdemands.1, by simpa using hinactive⟩, hdemands.2⟩

/-- Whom a node asks, and about which stream, does not depend on the moves made meanwhile. -/
theorem Asks.of_moves {c' : Cause} {m : Node τ} (h : Moves c' n m) {p : DomainPair}
    {id key : String} (hasks : Asks n p id key c) : Asks m p id key c := by
  cases hasks with
  | caller pair hcheck => exact .caller pair (by rwa [h.directory_eq])
  | presented k stanza hk hkind htype hnamed hid hkey hblank =>
    have hstream : (m.session k).streamId = (n.session k).streamId :=
      Session.streamId_eq (h.identity_eq hk)
    exact .presented k stanza (Nat.lt_of_lt_of_le hk h.length_le) hkind htype
      (by rwa [h.directory_eq]) (hstream.trans hid) hkey hblank

theorem Opens.of_moves {c' : Cause} {m : Node τ} (h : Moves c' n m) {p : DomainPair}
    {relayFor : Option String} (hopens : Opens n p relayFor c) : Opens m p relayFor c := by
  cases hopens with
  | caller pair relayFor hcheck => exact .caller pair relayFor (by rwa [h.directory_eq])
  | relay id key hasks => exact .relay id key (hasks.of_moves h)

section OpenConnection

variable (hn : n.HasCanonicalEntries) {pair p : DomainPair}
  (hcheck : DomainPair.checked pair.own pair.peer n.directory.isServed = .ok p)

include hn hcheck

/-- A connection for a valid pair is refused by the transport, or it gets a session, which is closed
at once just if the connection is dead. -/
theorem openConnection_outcomes (relayFor : Option String) :
    (∃ e, ((n.withEntry p).connect p).1 = .error e ∧
      n.openConnection pair relayFor = (.error (.transport e),
        ((n.withEntry p).connect p).2)) ∨
    ∃ conn, ((n.withEntry p).connect p).1 = .ok conn ∧
      (Transport.isOpen ((n.withEntry p).connect p).2.transport conn = true ∧
        n.openConnection pair relayFor = (.ok n.sessions.length,
          ((n.withEntry p).connect p).2.establish
            p relayFor conn) ∨
        Transport.isOpen ((n.withEntry p).connect p).2.transport conn = false ∧
          n.openConnection pair relayFor = (.ok n.sessions.length,
            (((n.withEntry p).connect p).2.establish
              p relayFor conn).connectionClosed conn)) := by
  unfold openConnection
  rw [entry_eq hn, hcheck]
  rcases hconnect : (n.withEntry p).connect p with ⟨outcome, m⟩
  have hlength : m.sessions.length = n.sessions.length := by
    have hsessions := sessions_connect (n.withEntry p) p
    rw [hconnect] at hsessions
    rw [hsessions]
    rfl
  cases outcome with
  | error e => exact Or.inl ⟨e, rfl, by simp only [hconnect]⟩
  | ok conn =>
    refine Or.inr ⟨conn, rfl, ?_⟩
    simp only [hconnect, hlength, establish]
    split
    · rename_i hopen
      exact Or.inl ⟨hopen, rfl⟩
    · rename_i hdead
      exact Or.inr ⟨eq_false_of_ne_true hdead, rfl⟩

/-- A connection for a valid pair is refused by the transport, or it gets a session, which is closed
at once if the connection is dead. -/
theorem openConnection_cases (relayFor : Option String) :
    (∃ e, ((n.withEntry p).connect p).1 = .error e ∧
      n.openConnection pair relayFor = (.error (.transport e),
        ((n.withEntry p).connect p).2)) ∨
    ∃ conn, ((n.withEntry p).connect p).1 = .ok conn ∧
      (n.openConnection pair relayFor = (.ok n.sessions.length,
          ((n.withEntry p).connect p).2.establish
            p relayFor conn) ∨
        n.openConnection pair relayFor = (.ok n.sessions.length,
          (((n.withEntry p).connect p).2.establish
            p relayFor conn).connectionClosed conn)) :=
  (openConnection_outcomes hn hcheck relayFor).imp_right fun ⟨conn, hconn, heq⟩ =>
    ⟨conn, hconn, heq.imp And.right And.right⟩

theorem moves_openConnection {relayFor : Option String} (hopens : Opens n p relayFor c) :
    Moves c n (n.openConnection pair relayFor).2 := by
  have hentry := (Registry.isSome_get?_ensure n.registry p p).mpr (Or.inl rfl)
  have hensure : Moves c n (n.withEntry p) := .single (.ensure p hopens.concerns)
  have hopens' := hopens.of_moves hensure
  rcases openConnection_outcomes hn hcheck relayFor with ⟨e, hrefused, heq⟩ | ⟨conn, hconn, heq⟩
  · rw [heq]
    exact hensure.tail (.refuse p relayFor e hopens' hrefused)
  · have hestablish := hensure.tail (.establish p relayFor conn hopens' hentry hconn)
    rcases heq with ⟨-, heq⟩ | ⟨hdead, heq⟩
    · rw [heq]
      exact hestablish
    · rw [heq]
      exact hestablish.tail (.close conn n.sessions.length (find?_register_self _ _ _)
        (Or.inr hdead))

/-- A relay that was just opened may carry a request, even if it is dead already. -/
theorem carries_of_openConnection {k : SessionKey} {m : Node τ}
    (h : n.openConnection pair (some p.peer) = (.ok k, m)) : Carries m p k := by
  let before := ((n.withEntry p).connect p).2
  rcases openConnection_cases hn hcheck (some p.peer) with ⟨e, _, heq⟩ | ⟨conn, _, heq⟩
  · rw [heq] at h
    cases h
  · have hlength : n.sessions.length < (before.establish p (some p.peer) conn).sessions.length :=
      Nat.lt_of_lt_of_eq (Nat.lt_succ_self _) (length_sessions_establish _ _ _ _).symm
    have hsession : (before.establish p (some p.peer) conn).session n.sessions.length =
        (Session.opened conn p (some p.peer) before.nextIdentifier).join p :=
      (session_establish before p (some p.peer) conn n.sessions.length).trans (if_pos rfl)
    rcases heq with heq | heq
    · rw [heq] at h
      cases h
      exact .fresh conn before.nextIdentifier hlength (Or.inl hsession)
    · rw [heq] at h
      cases h
      have hfind : (before.establish p (some p.peer) conn).find? conn = some n.sessions.length :=
        find?_register_self _ _ _
      refine .fresh conn before.nextIdentifier ?_ (Or.inr ?_)
      · rw [length_sessions_connectionClosed hfind]
        exact hlength
      · rw [session_connectionClosed hfind, if_pos ⟨rfl, hlength⟩, hsession]
        rfl

end OpenConnection

section Verifier

variable {p : DomainPair} {id key : String}

theorem moves_verifier (hn : n.HasCanonicalEntries) (hasks : Asks n p id key c) :
    Moves c n (n.verifier p).2 := by
  unfold verifier
  split
  · exact .refl
  · exact moves_openConnection hn hasks.concerns.isCanonical (.relay id key hasks)

theorem carries_of_verifier (hn : n.HasCanonicalEntries)
    (hp : p.IsCanonical n.directory.isServed) {k : SessionKey} {m : Node τ}
    (h : n.verifier p = (.ok k, m)) : Carries m p k := by
  unfold verifier at h
  split at h
  · rename_i j hj
    cases h
    exact .usable hj
  · exact carries_of_openConnection hn hp h

theorem moves_requestVerification (hn : n.HasCanonicalEntries) {pair : DomainPair}
    (hcheck : DomainPair.checked pair.own pair.peer n.directory.isServed = .ok p)
    (hasks : Asks n p id key c) : Moves c n (n.requestVerification pair id key).2 := by
  have hensure : Moves c n (n.withEntry p) := .single (.ensure p hasks.concerns)
  have hn' := hensure.hasCanonicalEntries hn
  have hasks' := hasks.of_moves hensure
  have hverifier : Moves c n ((n.withEntry p).verifier p).2 :=
    hensure.trans (moves_verifier hn' hasks')
  unfold requestVerification
  rw [entry_eq hn, hcheck]
  simp only
  rcases hresult : (n.withEntry p).verifier p with ⟨outcome, m⟩
  rw [hresult] at hverifier
  cases outcome with
  | error e => exact hverifier
  | ok k =>
    have hcarries := carries_of_verifier hn' hasks'.concerns.isCanonical hresult
    have hqueue := hverifier.tail (.queueRequest k p id key (hasks.of_moves hverifier) hcarries)
    simp only
    split
    · rename_i hid
      exact hqueue.tail (.flush k (Or.inl hid))
    · exact hqueue

end Verifier

theorem moves_refuseKey (k : SessionKey) (stanza : Element) (pair : DomainPair)
    (condition : String) : Moves (.heard k stanza) n (n.refuseKey k pair condition) :=
  .single (.say k _ (.refusal k stanza pair condition))

section Dialback

variable {k : SessionKey} {stanza : Element} {recipient sender : String} {p : DomainPair}

omit [Transport τ] in
theorem pairNamed?_eq_some
    (hto : stanza.attr? "to" = some recipient) (hfrom : stanza.attr? "from" = some sender)
    (hcheck : DomainPair.checked (DomainPair.ofAddresses recipient sender).own
      (DomainPair.ofAddresses recipient sender).peer n.directory.isServed = .ok p) :
    n.directory.pairNamed? stanza = some p := by
  simp only [Directory.pairNamed?, hto, hfrom, hcheck]
  rfl

theorem moves_receiveKey (hn : n.HasCanonicalEntries) (hk : k < n.sessions.length)
    (hkind : DialbackKind.of? stanza = some .result) (htype : stanza.attr? "type" = none)
    {pair : DomainPair} (hnamed : n.directory.pairNamed? stanza = some p)
    (hcheck : DomainPair.checked pair.own pair.peer n.directory.isServed = .ok p) :
    Moves (.heard k stanza) n (n.receiveKey k pair stanza) := by
  unfold receiveKey
  simp only
  split
  · exact moves_refuseKey k stanza pair _
  · split
    · exact moves_failStream k _ false
    · rename_i hblank
      have hphase : Moves (.heard k stanza) n (n.alter k (·.setPhase .awaitingVerify)) :=
        .single (.remark k _ (.phase _ rfl))
      have hasks : Asks n p (n.session k).streamId (Text.trim (stanza.cdata.getD ""))
          (.heard k stanza) :=
        .presented k stanza hk hkind htype hnamed rfl rfl hblank
      have hrequest := hphase.trans (moves_requestVerification (hphase.hasCanonicalEntries hn)
        (by rwa [hphase.directory_eq]) (hasks.of_moves hphase))
      rcases hresult : (n.alter k (·.setPhase .awaitingVerify)).requestVerification pair
        (n.session k).streamId (Text.trim (stanza.cdata.getD "")) with ⟨outcome, m⟩
      rw [hresult] at hrequest
      cases outcome with
      | ok _ => exact hrequest
      | error e => exact hrequest.trans (moves_refuseKey k stanza pair _)

theorem moves_receiveVerdict (hkind : DialbackKind.of? stanza = some .result) {verdict : Verdict}
    (htype : (stanza.attr? "type").map Verdict.parse = some verdict)
    (hnamed : n.directory.pairNamed? stanza = some p) (hentry : (n.registry.get? p).isSome)
    (hlive : n.find? (n.session k).conn = some k) :
    Moves (.heard k stanza) n (n.receiveVerdict k p verdict) := by
  unfold receiveVerdict
  cases verdict with
  | valid =>
    simp only
    split
    · rename_i hrequest
      have hgrant : Moves (.heard k stanza) n
          ((n.alter k (·.dropKeyRequest p.peer)).trust p k) :=
        .single (.grantVerdict k stanza p hkind htype hnamed hentry hrequest hlive)
      exact hgrant.trans (moves_flushPair (.dialback k stanza (by rw [hkind]; rfl) htype)
        (isAuthenticated_trust (n := n.alter k (·.dropKeyRequest p.peer)) hentry k))
    · exact .refl
  | invalid => exact .single (.stop k false)
  | error => exact .single (.stop k false)

theorem moves_answerVerify (hkind : DialbackKind.of? stanza = some .verify)
    (htype : stanza.attr? "type" = none)
    (hto : stanza.attr? "to" = some recipient) (hfrom : stanza.attr? "from" = some sender) :
    Moves (.heard k stanza) n
      (n.answerVerify k (DomainPair.ofAddresses recipient sender) stanza) := by
  unfold answerVerify
  split
  · exact moves_failStream k _ false
  · rename_i id hid
    exact .single (.say k _ (.answer k stanza recipient sender id _ hkind htype hto hfrom hid rfl))

theorem moves_relayVerdict (hkind : DialbackKind.of? stanza = some .verify) {verdict : Verdict}
    (htype : (stanza.attr? "type").map Verdict.parse = some verdict)
    (hnamed : n.directory.pairNamed? stanza = some p) (hentry : (n.registry.get? p).isSome) :
    Moves (.heard k stanza) n (n.relayVerdict k p stanza verdict) := by
  unfold relayVerdict
  split
  · exact .refl
  · rename_i id hid
    split
    · exact .refl
    · rename_i hrequest
      have hrequest' : (n.session k).hasVerifyRequest p.peer id := by simpa using hrequest
      have htarget := incomingByStream?_alter n k (f := (·.dropVerifyRequest p.peer id))
        (fun _ => rfl) p id
      have hsettle : (verdict = .valid → n.incomingByStream? p id = none) →
          Moves (.heard k stanza) n (n.alter k (·.dropVerifyRequest p.peer id)) := fun hnone =>
        .single (.settle k stanza p id verdict hkind htype hid hnamed hrequest' hnone)
      have hstream : ∀ t, n.incomingByStream? p id = some t →
          t ∈ n.incomingKeys p ∧ (n.session t).streamId = id := fun t ht =>
        ⟨List.mem_of_find?_eq_some ht, by simpa using List.find?_some ht⟩
      by_cases hvalid : verdict = .valid
      · simp only [hvalid, decide_true, if_true, authenticateByStream, htarget]
        cases ht : n.incomingByStream? p id with
        | none => exact hsettle fun _ => ht
        | some t =>
          obtain ⟨hlink, hid'⟩ := hstream t ht
          have hgrant : Moves (.heard k stanza) n
              ((n.alter k (·.dropVerifyRequest p.peer id)).trust p t) :=
            .single (.grantRelayed k t stanza p id hkind (htype.trans (by rw [hvalid])) hid hnamed
              hentry hrequest' ht)
          have hflush := hgrant.trans (moves_flushPair
            (.dialback k stanza (by rw [hkind]; rfl) (htype.trans (by rw [hvalid])))
            (isAuthenticated_trust (n := n.alter k (·.dropVerifyRequest p.peer id)) hentry t))
          refine hflush.tail (.say t _ (.verdict k t stanza p id .valid hkind
            (htype.trans (by rw [hvalid])) hid ?_ ?_ ?_))
          · rwa [Moves.directory_eq hflush]
          · rw [incomingKeys, registry_flushPair]
            exact mem_incomingKeys_trust (n := n.alter k (·.dropVerifyRequest p.peer id)) hlink
          · rw [view_session_flushPair Session.streamId (fun _ => rfl), session_trust]
            have hkeep := view_session_alter Session.streamId
              (f := (·.dropVerifyRequest p.peer id)) (fun _ => rfl) n k t
            split
            · exact hkeep.trans hid'
            · exact hkeep.trans hid'
      · simp only [hvalid, decide_false, Bool.false_eq_true, if_false, htarget]
        have hdropped := hsettle fun h => absurd h hvalid
        cases ht : n.incomingByStream? p id with
        | none => exact hdropped
        | some t =>
          obtain ⟨hlink, hid'⟩ := hstream t ht
          have hkeep := view_session_alter Session.streamId
            (f := (·.dropVerifyRequest p.peer id)) (fun _ => rfl) n k t
          have hsay := Utterance.verdict (n := n.alter k (·.dropVerifyRequest p.peer id)) k t stanza
            p id verdict hkind htype hid hnamed hlink (hkeep.trans hid')
          simp only [hvalid, decide_false] at hsay
          exact hdropped.tail (.say t _ hsay)

theorem moves_receiveVerifyReply (hkind : DialbackKind.of? stanza = some .verify)
    {verdict : Verdict} (htype : (stanza.attr? "type").map Verdict.parse = some verdict)
    (hnamed : n.directory.pairNamed? stanza = some p) (hentry : (n.registry.get? p).isSome) :
    Moves (.heard k stanza) n (n.receiveVerifyReply k p stanza verdict) := by
  have hrelay := moves_relayVerdict (k := k) hkind htype hnamed hentry
  unfold receiveVerifyReply
  simp only
  split
  · exact hrelay.tail (.stop k false)
  · exact hrelay

theorem moves_dispatchDialback (hn : n.HasCanonicalEntries) (hk : k < n.sessions.length)
    {kind : DialbackKind} (hkind : DialbackKind.of? stanza = some kind)
    (hto : stanza.attr? "to" = some recipient) (hfrom : stanza.attr? "from" = some sender)
    (hcheck : DomainPair.checked (DomainPair.ofAddresses recipient sender).own
      (DomainPair.ofAddresses recipient sender).peer n.directory.isServed = .ok p)
    (hentry : (n.registry.get? p).isSome) (hlive : n.find? (n.session k).conn = some k) :
    Moves (.heard k stanza) n
      (n.dispatchDialback k kind (DomainPair.ofAddresses recipient sender) p stanza) := by
  have hnamed := pairNamed?_eq_some hto hfrom hcheck
  unfold dispatchDialback
  cases kind with
  | result =>
    cases htype : stanza.attr? "type" with
    | none => exact moves_receiveKey hn hk hkind htype hnamed hcheck
    | some text => exact moves_receiveVerdict hkind (by rw [htype]; rfl) hnamed hentry hlive
  | verify =>
    cases htype : stanza.attr? "type" with
    | none => exact moves_answerVerify hkind htype hto hfrom
    | some text => exact moves_receiveVerifyReply hkind (by rw [htype]; rfl) hnamed hentry

theorem moves_takeIn (hlive : n.find? (n.session k).conn = some k)
    (hkind : (DialbackKind.of? stanza).isSome) (hnamed : n.directory.pairNamed? stanza = some p)
    (spelled : DomainPair) : Moves (.heard k stanza) n (n.takeIn k spelled p) := by
  have hadopt : Moves (.heard k stanza) n (n.alter k (·.adoptPair spelled)) :=
    .single (.remark k _ (.adopt stanza spelled))
  have hensure := hadopt.tail (.ensure p (.named k stanza hkind hnamed))
  have hconn := view_session_alter Session.conn (f := (·.adoptPair spelled)) (fun _ => rfl) n k k
  have hentry := (Registry.isSome_get?_ensure n.registry p p).mpr (Or.inl rfl)
  unfold takeIn
  simp only
  split
  · rename_i hrole
    exact hensure.tail (.join k stanza p hrole hkind hnamed hentry
      ((congrArg n.find? hconn).trans hlive))
  · exact hensure

omit [Transport τ] in
theorem checked_of_pairNamed? (h : n.directory.pairNamed? stanza = some p) :
    stanza.attr? "to" = some ((stanza.attr? "to").getD "") ∧
      stanza.attr? "from" = some ((stanza.attr? "from").getD "") ∧
      DomainPair.checked stanza.spelled.own stanza.spelled.peer n.directory.isServed = .ok p := by
  unfold Directory.pairNamed? at h
  split at h
  · rename_i recipient sender hto hfrom
    simp only [Element.spelled, hto, hfrom, Option.getD_some, true_and]
    cases hchecked : DomainPair.checked (DomainPair.ofAddresses recipient sender).own
        (DomainPair.ofAddresses recipient sender).peer n.directory.isServed with
    | error e => simp [hchecked, Except.toOption] at h
    | ok q =>
      have hq : q = p := by simpa [hchecked, Except.toOption] using h
      rw [hq]
  · cases h

/-- A dialback stanza that names a valid pair is taken in, and then acted on. -/
theorem receiveDialback_eq (hn : n.HasCanonicalEntries)
    (hnamed : n.directory.pairNamed? stanza = some p) (kind : DialbackKind) :
    n.receiveDialback k kind stanza =
      (n.takeIn k stanza.spelled p).dispatchDialback k kind stanza.spelled p stanza := by
  obtain ⟨hto, hfrom, hcheck⟩ := checked_of_pairNamed? hnamed
  let adopted := n.alter k (·.adoptPair stanza.spelled)
  have hentry : adopted.entry stanza.spelled = (.ok p, adopted.withEntry p) := by
    have hcheck' : DomainPair.checked stanza.spelled.own stanza.spelled.peer
        adopted.directory.isServed = .ok p := hcheck
    rw [entry_eq (n := adopted) hn, hcheck']
  unfold receiveDialback
  rw [hto, hfrom]
  simp only [adopted, Element.spelled] at hentry ⊢
  simp only [hentry, takeIn]

/-- A dialback stanza that names no valid pair fails the stream. -/
theorem receiveDialback_of_unnamed (hn : n.HasCanonicalEntries)
    (hnone : n.directory.pairNamed? stanza = none) (kind : DialbackKind) :
    ∃ condition, n.receiveDialback k kind stanza = n.failStream k condition false ∨
      n.receiveDialback k kind stanza =
        (n.alter k (·.adoptPair stanza.spelled)).failStream k condition false := by
  unfold receiveDialback
  split
  · rename_i recipient sender hto hfrom
    let pair := DomainPair.ofAddresses recipient sender
    have hspelled : stanza.spelled = pair := by simp [Element.spelled, hto, hfrom, pair]
    have hentry := entry_eq (n := n.alter k (·.adoptPair pair)) hn pair
    cases hcheck : DomainPair.checked pair.own pair.peer n.directory.isServed with
    | error e =>
      simp only [directory_alter, hcheck, pair] at hentry
      simp only [hentry, hspelled, pair]
      exact ⟨_, Or.inr rfl⟩
    | ok p =>
      rw [pairNamed?_eq_some hto hfrom hcheck] at hnone
      cases hnone
  · exact ⟨_, Or.inl rfl⟩

theorem moves_receiveDialback (hn : n.HasCanonicalEntries) (hk : k < n.sessions.length)
    (hlive : n.find? (n.session k).conn = some k) {kind : DialbackKind}
    (hkind : DialbackKind.of? stanza = some kind) :
    Moves (.heard k stanza) n (n.receiveDialback k kind stanza) := by
  cases hnamed : n.directory.pairNamed? stanza with
  | none =>
    have hadopt : Moves (.heard k stanza) n (n.alter k (·.adoptPair stanza.spelled)) :=
      .single (.remark k _ (.adopt stanza stanza.spelled))
    obtain ⟨condition, heq | heq⟩ := receiveDialback_of_unnamed (k := k) hn hnamed kind
    · rw [heq]
      exact moves_failStream k condition false
    · rw [heq]
      exact hadopt.trans (moves_failStream k condition false)
  | some p =>
    obtain ⟨hto, hfrom, hcheck⟩ := checked_of_pairNamed? hnamed
    have hkind' : (DialbackKind.of? stanza).isSome := by rw [hkind]; rfl
    have htaken := moves_takeIn hlive hkind' hnamed stanza.spelled
    have hconn := Session.conn_eq (Moves.identity_eq htaken hk)
    have hlive' : (n.takeIn k stanza.spelled p).find?
        ((n.takeIn k stanza.spelled p).session k).conn = some k := by
      rw [hconn, find?, live_takeIn]
      exact hlive
    rw [receiveDialback_eq hn hnamed]
    exact htaken.trans (moves_dispatchDialback (Moves.hasCanonicalEntries htaken hn)
      (Nat.lt_of_lt_of_le hk (Moves.length_le htaken)) hkind hto hfrom
      (by rw [directory_takeIn]; exact hcheck) (isSome_get?_takeIn n k _ p) hlive')

end Dialback

/-- Stream errors come first. -/
theorem standard_eq (settings : Settings) :
    (Chain.standard settings : Chain τ) =
      [.streamError, .dialback settings.authTimeout settings.workaround] := by
  simp [Chain.standard, Chain.ofProcessors, List.mergeSort, List.MergeSort.Internal.splitInTwo,
    Processor.dialback, Processor.streamError, ProcessorOrder.rank]

theorem moves_receive (hn : n.WellFormed) (settings : Settings) (conn : ConnId)
    (stanza : Element) :
    Moves (n.cause (.receive conn stanza)) n
      (n.receive (Chain.standard settings) conn stanza).2 := by
  unfold receive
  cases hfind : n.find? conn with
  | none => exact .refl
  | some k =>
    have hcause : n.cause (.receive conn stanza) = .heard k stanza := by
      simp only [cause, hfind]
    obtain ⟨hk, hconn⟩ := hn.live conn k hfind
    have hlive : n.find? (n.session k).conn = some k := by rw [hconn, hfind]
    rw [hcause, standard_eq]
    simp only [Chain.process, Processor.streamError, Processor.dialback]
    by_cases herror : Stanza.isStreamError stanza
    · simp only [herror, if_true]
      exact .single (.stop k false)
    · simp only [herror, Bool.false_eq_true, if_false]
      cases hkind : DialbackKind.of? stanza with
      | some kind => exact moves_receiveDialback hn.entries hk hlive hkind
      | none =>
        by_cases hfeatures : (n.session k).role = .outbound ∧ Stanza.isStreamFeatures stanza
        · have hmoves := moves_receiveFeatures hn.entries settings.workaround hkind
            hfeatures.2 hfeatures.1 hlive
          simp only [hfeatures.1, hfeatures.2, decide_true, Bool.and_self, if_true]
          rcases hresult : n.receiveFeatures settings.workaround k stanza with ⟨consumed, m⟩
          rw [hresult] at hmoves
          cases consumed <;> exact hmoves
        · have hother : ((n.session k).role = .outbound && Stanza.isStreamFeatures stanza) =
              false := by
            simpa using hfeatures
          simp only [hother]
          exact .refl

/-- After its own header was answered or noted, a stream is brought under way by the processors. -/
theorem moves_chain_streamOpened (settings : Settings) (k : SessionKey) (header : StreamHeader) :
    Moves (.header k header) n ((Chain.standard settings).streamOpened n k header).2 := by
  rw [standard_eq]
  simp only [Chain.streamOpened, Processor.streamError, Processor.dialback]
  cases hrole : (n.session k).role with
  | inbound => exact .single (.remark k _ (.phase _ rfl))
  | outbound =>
    simp only
    split
    · exact .single (.remark k _ (.phase _ rfl))
    · rename_i hversion
      exact moves_presentKey (fun p _ => .header header (by simpa using hversion)) hrole

omit [Transport τ] in
/-- The answer to a header leaves the node as it is, or notes the pair that the header names. -/
theorem answerHeader_cases (chain : Chain τ) (k : SessionKey) (header : StreamHeader) :
    (n.answerHeader chain k header).2.2 = n ∨
      ∃ pair, n.headerPair header = .ok (some pair) ∧
        (n.answerHeader chain k header).2.2 = n.alter k (·.setPair pair) := by
  unfold answerHeader
  cases n.headerPair header with
  | error e => exact Or.inl rfl
  | ok named =>
    cases named with
    | none =>
      left
      simp only
      split <;> rfl
    | some pair =>
      refine Or.inr ⟨pair, rfl, ?_⟩
      simp only
      split <;> rfl

theorem moves_answerHeader (chain : Chain τ) {k : SessionKey} (header : StreamHeader)
    (hrole : (n.session k).role = .inbound) :
    Moves (.header k header) n (n.answerHeader chain k header).2.2 := by
  obtain heq | ⟨pair, hpair, heq⟩ := answerHeader_cases (n := n) chain k header
  · rw [heq]
  · rw [heq]
    exact .single (.remark k _ (.headerPair header pair hrole hpair))

theorem moves_streamOpened (settings : Settings) (conn : ConnId) (header : StreamHeader) :
    Moves (n.cause (.streamOpened conn header)) n
      (n.streamOpened (Chain.standard settings) conn header).2 := by
  cases hfind : n.find? conn with
  | none =>
    simp only [streamOpened, hfind]
    exact .refl
  | some k =>
    have hcause : n.cause (.streamOpened conn header) = .header k header := by
      simp only [cause, hfind]
    rw [hcause]
    cases hrole : (n.session k).role with
    | inbound =>
      have hanswer := moves_answerHeader (Chain.standard settings) header hrole
      simp only [streamOpened, hfind, hrole]
      rcases hresult : n.answerHeader (Chain.standard settings) k header with ⟨text, error, m⟩
      rw [hresult] at hanswer
      cases error with
      | some e => exact hanswer.tail (.stop k false)
      | none => exact hanswer.trans (moves_chain_streamOpened settings k header)
    | outbound =>
      simp only [streamOpened, hfind, hrole]
      cases hid : header.id with
      | none => exact moves_chain_streamOpened settings k header
      | some id =>
        exact (ReflTransGen.single (Move.remark k _ (.peerStream header id hrole hid))).trans
          (moves_chain_streamOpened settings k header)

theorem moves_expire (k : SessionKey) : Moves c n (n.expire k) := by
  unfold expire
  split
  · exact .single (.stop k true)
  · exact .refl

theorem moves_runDue (milliseconds : Nat) :
    Moves (.call (.advance milliseconds)) n n.runDue := by
  have hfold : ∀ (alarms : List Alarm) (n : Node τ),
      Moves (.call (.advance milliseconds)) n
        (alarms.foldl (fun n alarm => n.expire alarm.session) n) := by
    intro alarms
    induction alarms with
    | nil => exact fun n => .refl
    | cons alarm rest ih => exact fun n => (moves_expire alarm.session).trans (ih _)
  exact (ReflTransGen.single (Move.tick milliseconds n.clock _ fun alarm halarm =>
    (List.mem_filter.mp halarm).1)).trans (hfold n.dueAlarms _)

/-- Whatever happens to a node is a sequence of moves for one cause. -/
theorem step_moves (hn : n.WellFormed) (settings : Settings) (event : Event) :
    Moves (n.cause event) n (n.step (Chain.standard settings) event) := by
  cases event with
  | accept conn address => exact .single (.accept conn address)
  | openConnection pair relayFor =>
    cases hcheck : DomainPair.checked pair.own pair.peer n.directory.isServed with
    | error e =>
      have hentry : n.entry pair = (.error e, n) := by rw [entry_eq hn.entries, hcheck]
      simp only [step, openConnection, hentry]
      exact .refl
    | ok p => exact moves_openConnection hn.entries hcheck (.caller pair relayFor hcheck)
  | serviceStarted conn =>
    simp only [step, serviceStarted]
    cases hfind : n.find? conn with
    | none => exact .refl
    | some k =>
      simp only [standard_eq]
      exact .single (.arm conn settings.authTimeout k hfind)
  | streamOpened conn header => exact moves_streamOpened settings conn header
  | receive conn stanza => exact moves_receive hn settings conn stanza
  | tlsCompleted conn trust =>
    simp only [step, tlsCompleted]
    cases hfind : n.find? conn with
    | none => exact .refl
    | some k => exact .single (.remark k _ (.tls conn trust hfind))
  | connectionClosed conn =>
    cases hfind : n.find? conn with
    | none =>
      simp only [step, connectionClosed, hfind]
      exact .refl
    | some k => exact .single (.close conn k hfind (Or.inl rfl))
  | send pair stanza =>
    simp only [step, send]
    cases hroute : n.route? pair with
    | none => exact .refl
    | some k => exact .single (.say k stanza (.traffic k pair stanza hroute))
  | requestVerification pair id key =>
    cases hcheck : DomainPair.checked pair.own pair.peer n.directory.isServed with
    | error e =>
      have hentry : n.entry pair = (.error e, n) := by rw [entry_eq hn.entries, hcheck]
      simp only [step, requestVerification, hentry]
      exact .refl
    | ok p => exact moves_requestVerification hn.entries hcheck (.caller pair hcheck)
  | advance milliseconds =>
    exact (ReflTransGen.single (Move.tick milliseconds (n.clock + milliseconds) n.alarms
      fun _ halarm => halarm)).trans (moves_runDue milliseconds)

end Federation.Node
