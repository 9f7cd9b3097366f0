import Federation.Proofs.Node.Moves
import Federation.Session.Lemmas

/-!
What a move changes about one session and about one entry of the registry. A move that makes a pair
trusted does so for a grant, which says what was received for it.
-/

namespace Federation

namespace Registry

theorem get?_alter_eq_some {f : TrustEntry → TrustEntry} (hf : ∀ e, (f e).pair = e.pair)
    {r : Registry} {pair other : DomainPair} {e' : TrustEntry}
    (h : (r.alter pair f).get? other = some e') :
    ∃ e, r.get? other = some e ∧ (other = pair ∧ e' = f e ∨ other ≠ pair ∧ e' = e) := by
  by_cases hother : other = pair
  · subst hother
    rw [get?_alter_self hf] at h
    obtain ⟨e, he, heq⟩ := Option.map_eq_some_iff.mp h
    exact ⟨e, he, Or.inl ⟨rfl, heq.symm⟩⟩
  · rw [get?_alter_of_ne hf r hother] at h
    exact ⟨e', h, Or.inr ⟨hother, rfl⟩⟩

/-- What an entry has after a connection has left pairs, it had before; of the pairs that were left
it has no link of that connection. -/
theorem get?_foldl_unlink_eq_some {joined : List DomainPair} {conn : ConnId} {r : Registry}
    {pair : DomainPair} {e' : TrustEntry}
    (h : (joined.foldl (fun r pair => r.unlink pair conn) r).get? pair = some e') :
    ∃ e, r.get? pair = some e ∧ e'.isAuthenticated = e.isAuthenticated ∧
      (∀ link ∈ e'.incoming, link ∈ e.incoming ∧ (pair ∈ joined → link.conn ≠ conn)) ∧
      ∀ link ∈ e'.outgoing, link ∈ e.outgoing ∧ (pair ∈ joined → link.conn ≠ conn) := by
  have hremoved : ∀ links : List Link, ∀ link ∈ Link.remove conn links,
      link ∈ links ∧ (pair ∈ joined → link.conn ≠ conn) := by
    intro links link hlink
    obtain ⟨hmem, hne⟩ := Link.mem_remove.mp hlink
    exact ⟨hmem, fun _ => hne⟩
  rw [get?_foldl_unlink] at h
  split at h
  · obtain ⟨hmap, -⟩ := Option.filter_eq_some_iff.mp h
    obtain ⟨e, he, rfl⟩ := Option.map_eq_some_iff.mp hmap
    exact ⟨e, he, rfl, hremoved e.incoming, hremoved e.outgoing⟩
  · rename_i hjoined
    have hkept : ∀ links : List Link, ∀ link ∈ links,
        link ∈ links ∧ (pair ∈ joined → link.conn ≠ conn) :=
      fun links link hlink => ⟨hlink, fun hpair => absurd hpair hjoined⟩
    exact ⟨e', h, rfl, hkept e'.incoming, hkept e'.outgoing⟩

end Registry

namespace Session

def notes (s : Session) : Bool × CertTrust × Option String :=
  (s.tlsActive, s.trust, s.peerStreamId)

/-- What a grant makes of a session: it adds the pair to those that the session is trusted for, and
may take back what was outstanding. -/
structure Granted (t : Session) (p : DomainPair) (s : Session) : Prop where
  pair : s.pair = t.pair
  notes : s.notes = t.notes
  waiting : s.waiting = t.waiting
  trusted : s.trusted = t.trusted.insert p
  keyRequests : ∀ d ∈ s.keyRequests, d ∈ t.keyRequests
  verifyRequests : ∀ q ∈ s.verifyRequests, q ∈ t.verifyRequests

theorem granted_of_eq {base t : Session} {p : DomainPair}
    (h : base = t ∨ base = t.dropKeyRequest p.peer ∨ ∃ id, base = t.dropVerifyRequest p.peer id) :
    t.Granted p ((base.join p).markTrusted p) := by
  rcases h with rfl | rfl | ⟨id, rfl⟩
  · exact ⟨rfl, rfl, rfl, rfl, fun _ hd => hd, fun _ hq => hq⟩
  · exact ⟨rfl, rfl, rfl, rfl, fun _ hd => (List.mem_filter.mp hd).1, fun _ hq => hq⟩
  · exact ⟨rfl, rfl, rfl, rfl, fun _ hd => hd, fun _ hq => (List.mem_filter.mp hq).1⟩

end Session

namespace Node

variable {τ : Type}

/-- What entitles a session to be trusted for a pair. -/
inductive Grants (n : Node τ) (p : DomainPair) : SessionKey → Cause → Prop
  | verdict (k : SessionKey) (stanza : Element)
      (hkind : DialbackKind.of? stanza = some .result)
      (htype : (stanza.attr? "type").map Verdict.parse = some .valid)
      (hnamed : n.directory.pairNamed? stanza = some p)
      (hrequest : (n.session k).hasKeyRequest p.peer) : Grants n p k (.heard k stanza)
  | certificate (k : SessionKey) (stanza : Element) (pair : DomainPair)
      (hkind : DialbackKind.of? stanza = none) (hrole : (n.session k).role = .outbound)
      (hpair : (n.session k).pair = some pair)
      (hcheck : DomainPair.checked pair.own pair.peer n.directory.isServed = .ok p)
      (htrusted : (n.session k).trust = .trusted) : Grants n p k (.heard k stanza)
  | relayed (r t : SessionKey) (stanza : Element) (id : String)
      (hkind : DialbackKind.of? stanza = some .verify)
      (htype : (stanza.attr? "type").map Verdict.parse = some .valid)
      (hid : stanza.attr? "id" = some id) (hnamed : n.directory.pairNamed? stanza = some p)
      (hrequest : (n.session r).hasVerifyRequest p.peer id)
      (hlink : t ∈ n.incomingKeys p) (hstream : (n.session t).streamId = id) :
      Grants n p t (.heard r stanza)

variable [Transport τ]

/-- What a move to a node makes of a session. -/
inductive Change (n m : Node τ) (c : Cause) (k : SessionKey) : Session → Prop
  | kept : Change n m c k (n.session k)
  | remark (f : Session → Session) (h : Remark n k c f) : Change n m c k (f (n.session k))
  | written (hmay : MayFlush n k c) : Change n m c k (n.session k).clearQueue
  | closing : Change n m c k (n.session k).beginClose
  | closed (conn : ConnId) (hfind : n.find? conn = some k) (hgone : m.find? conn = none) :
      Change n m c k (n.session k).beginClose.clearQueue
  | joined (p : DomainPair) : Change n m c k ((n.session k).join p)
  | keyOffered (p : DomainPair) (id secret : String) (hmay : MayPresent n k p c)
      (hrole : (n.session k).role = .outbound) (hpair : (n.session k).pair = some p)
      (hrelay : (n.session k).isRelay = false) (hid : (n.session k).peerStreamId = some id)
      (hsecret : n.directory.secretFor p.own = .ok secret) (accepted : Bool)
      (hlog : m.log = n.log ++ [.write (n.session k).conn ((n.session k).waiting ++
        [Stanza.key p.own p.peer (Key.derive p.own p.peer secret id)]) accepted]) :
      Change n m c k { (n.session k).addKeyRequest p.peer with
        phase := ((n.session k).setPhase .keySent).phase, waiting := [] }
  | requestQueued (p : DomainPair) (id key : String) (hasks : Asks n p id key c)
      (hcarries : Carries n p k) :
      Change n m c k (((n.session k).addVerifyRequest p.peer id).enqueue
        (Stanza.verifyRequest p.own p.peer id key))
  | requestAnswered (p : DomainPair) (id : String) (stanza : Element) (hheard : c = .heard k stanza)
      (hkind : DialbackKind.of? stanza = some .verify) :
      Change n m c k ((n.session k).dropVerifyRequest p.peer id)
  | granted (s : Session) (p : DomainPair) (hgrants : Grants n p k c)
      (hs : s = n.session k ∨ s = (n.session k).dropKeyRequest p.peer ∨
        ∃ id, s = (n.session k).dropVerifyRequest p.peer id) :
      Change n m c k ((s.join p).markTrusted p)
  | accepted (conn : ConnId) (address : String) (hk : k = n.sessions.length)
      (hcall : c = .call (.accept conn address)) :
      Change n m c k (.accepted conn address n.nextIdentifier)
  | opened (conn : ConnId) (p : DomainPair) (relayFor : Option String)
      (hk : k = n.sessions.length) (hopens : Opens n p relayFor c) :
      Change n m c k ((Session.opened conn p relayFor n.nextIdentifier).join p)

theorem Move.change {n m : Node τ} {c : Cause} (h : Move c n m) (k : SessionKey) :
    Change n m c k (m.session k) := by
  cases h with
  | remark j f hremark =>
    rw [session_alter]
    split
    · rename_i hk
      obtain ⟨rfl, -⟩ := hk
      exact .remark f hremark
    · exact .kept
  | join j stanza p =>
    rw [session_addIncoming]
    split
    · exact .joined p
    · exact .kept
  | offerKey j p id secret hmay hrole hpair hrelay hid hsecret =>
    rw [session_offerKey]
    split
    · rename_i hk
      obtain ⟨rfl, hlt⟩ := hk
      obtain ⟨accepted, hlog⟩ := log_offerKey hlt p (Key.derive p.own p.peer secret id)
      exact .keyOffered p id secret hmay hrole hpair hrelay hid hsecret accepted hlog
    · exact .kept
  | queueRequest j p id key hasks hcarries =>
    rw [session_alter, session_alter, length_sessions_alter]
    split
    · rename_i hk
      obtain ⟨rfl, -⟩ := hk
      exact .requestQueued p id key hasks hcarries
    · exact .kept
  | flush j hmay =>
    rw [session_flush]
    split
    · rename_i hk
      obtain ⟨rfl, -⟩ := hk
      exact .written hmay
    · exact .kept
  | stop j force =>
    rw [session_stop]
    split
    · exact .closing
    · exact .kept
  | grantVerdict j stanza p hkind htype hnamed hentry hrequest =>
    rw [session_trust, session_alter, length_sessions_alter]
    split
    · rename_i hk
      obtain ⟨rfl, -⟩ := hk
      exact .granted _ p (.verdict k stanza hkind htype hnamed hrequest) (Or.inr (Or.inl rfl))
    · exact .kept
  | grantCertificate j stanza pair p hkind hrole hpair hcheck htrusted hentry =>
    rw [session_trust]
    split
    · rename_i hk
      obtain ⟨rfl, -⟩ := hk
      exact .granted _ p (.certificate k stanza pair hkind hrole hpair hcheck htrusted) (Or.inl rfl)
    · exact .kept
  | grantRelayed r t stanza p id hkind htype hid hnamed hentry hrequest htarget =>
    have hlink : t ∈ n.incomingKeys p := List.mem_of_find?_eq_some htarget
    have hstream : (n.session t).streamId = id := by simpa using List.find?_some htarget
    rw [session_trust, session_alter, length_sessions_alter]
    by_cases ht : k = t ∧ t < n.sessions.length
    · obtain ⟨rfl, hlt⟩ := ht
      have hgrants := Grants.relayed r k stanza id hkind htype hid hnamed hrequest hlink hstream
      rw [if_pos ⟨rfl, hlt⟩]
      split
      · exact .granted _ p hgrants (Or.inr (Or.inr ⟨id, rfl⟩))
      · exact .granted _ p hgrants (Or.inl rfl)
    · rw [if_neg ht]
      split
      · rename_i hk
        obtain ⟨rfl, -⟩ := hk
        exact .requestAnswered p id stanza rfl hkind
      · exact .kept
  | settle r stanza p id verdict hkind =>
    rw [session_alter]
    split
    · rename_i hk
      obtain ⟨rfl, -⟩ := hk
      exact .requestAnswered p id stanza rfl hkind
    · exact .kept
  | accept conn address =>
    have hsame : (n.accept conn address).2.session k =
        (n.addSession (.accepted conn address n.nextIdentifier)).session k := rfl
    rw [hsame, session_addSession]
    split
    · rename_i hk
      exact .accepted conn address hk rfl
    · exact .kept
  | establish p relayFor conn hopens =>
    rw [session_establish]
    split
    · rename_i hk
      exact .opened conn p relayFor hk hopens
    · exact .kept
  | close conn j hfind =>
    rw [session_connectionClosed hfind]
    split
    · rename_i hk
      obtain ⟨rfl, -⟩ := hk
      refine .closed conn hfind ?_
      rw [find?, live_connectionClosed hfind]
      exact find?_unregister_self n conn
    · exact .kept
  | _ => exact .kept

inductive EntryChange (n m : Node τ) (c : Cause) (p : DomainPair) : TrustEntry → Prop
  | kept (e : TrustEntry) (he : n.registry.get? p = some e) : EntryChange n m c p e
  | fresh (hconcerns : Concerns n p c) : EntryChange n m c p { pair := p }
  | reduced (e e' : TrustEntry) (he : n.registry.get? p = some e)
      (hauth : e'.isAuthenticated = e.isAuthenticated)
      (hincoming : ∀ link ∈ e'.incoming, link ∈ e.incoming)
      (houtgoing : ∀ link ∈ e'.outgoing, link ∈ e.outgoing) : EntryChange n m c p e'
  | joined (e : TrustEntry) (he : n.registry.get? p = some e) (k : SessionKey) (stanza : Element)
      (hheard : c = .heard k stanza) (hrole : (n.session k).role = .inbound)
      (hkind : (DialbackKind.of? stanza).isSome)
      (hnamed : n.directory.pairNamed? stanza = some p) :
      EntryChange n m c p (e.addIncoming (n.link k))
  | linked (e : TrustEntry) (he : n.registry.get? p = some e) (conn : ConnId)
      (relayFor : Option String) (hopens : Opens n p relayFor c)
      (hsession : m.session n.sessions.length =
        (Session.opened conn p relayFor n.nextIdentifier).join p) :
      EntryChange n m c p (e.addOutgoing ⟨conn, n.sessions.length⟩)
  | grantedInbound (e : TrustEntry) (he : n.registry.get? p = some e) (k : SessionKey)
      (hgrants : Grants n p k c) (hrole : (n.session k).role = .inbound) :
      EntryChange n m c p (e.addIncoming (n.link k)).authenticate
  | grantedOutbound (e : TrustEntry) (he : n.registry.get? p = some e) (k : SessionKey)
      (hgrants : Grants n p k c) (hrole : (n.session k).role = .outbound) :
      EntryChange n m c p (e.addOutgoing (n.link k)).authenticate

omit [Transport τ] in
/-- An entry that a grant changes is that of the pair it is for. -/
theorem entryChange_trust {n b m : Node τ} {c : Cause} {p q : DomainPair} {k : SessionKey}
    (hgrants : Grants n q k c) (hregistry : b.registry = n.registry)
    (hlink : b.link k = n.link k) (hrole : (b.session k).role = (n.session k).role)
    {e : TrustEntry} (he : (b.trust q k).registry.get? p = some e) : EntryChange n m c p e := by
  rw [registry_trust] at he
  obtain ⟨e₁, he₁, hauth⟩ :=
    Registry.get?_alter_eq_some (f := TrustEntry.authenticate) (fun _ => rfl) he
  unfold addLink at he₁
  cases hside : (b.session k).role with
  | inbound =>
    simp only [hside, registry_addIncoming, hregistry, hlink] at he₁
    obtain ⟨e₀, he₀, hadd⟩ :=
      Registry.get?_alter_eq_some (f := (·.addIncoming (n.link k))) (fun _ => rfl) he₁
    rcases hauth with ⟨rfl, rfl⟩ | ⟨hne, rfl⟩
    · rcases hadd with ⟨-, rfl⟩ | ⟨hne, -⟩
      · exact .grantedInbound e₀ he₀ k hgrants (hrole.symm.trans hside)
      · exact absurd rfl hne
    · rcases hadd with ⟨heq, -⟩ | ⟨-, rfl⟩
      · exact absurd heq hne
      · exact .kept _ he₀
  | outbound =>
    simp only [hside, registry_addOutgoing, hregistry, hlink] at he₁
    obtain ⟨e₀, he₀, hadd⟩ :=
      Registry.get?_alter_eq_some (f := (·.addOutgoing (n.link k))) (fun _ => rfl) he₁
    rcases hauth with ⟨rfl, rfl⟩ | ⟨hne, rfl⟩
    · rcases hadd with ⟨-, rfl⟩ | ⟨hne, -⟩
      · exact .grantedOutbound e₀ he₀ k hgrants (hrole.symm.trans hside)
      · exact absurd rfl hne
    · rcases hadd with ⟨heq, -⟩ | ⟨-, rfl⟩
      · exact absurd heq hne
      · exact .kept _ he₀

theorem Move.entryChange {n m : Node τ} {c : Cause} (h : Move c n m) {p : DomainPair}
    {e : TrustEntry} (he : m.registry.get? p = some e) : EntryChange n m c p e := by
  have hlink : ∀ {f : Session → Session} (_ : ∀ s, (f s).conn = s.conn) (j k : SessionKey),
      (n.alter j f).link k = n.link k := by
    intro f hf j k
    rw [link, link, view_session_alter Session.conn hf]
  cases h with
  | ensure q hconcerns =>
    by_cases hp : p = q
    · subst hp
      have hself := Registry.get?_ensure_self n.registry p
      rw [withEntry, hself] at he
      cases hget : n.registry.get? p with
      | none =>
        simp only [hget, Option.getD_none, Option.some.injEq] at he
        subst he
        exact .fresh hconcerns
      | some e₀ =>
        simp only [hget, Option.getD_some, Option.some.injEq] at he
        subst he
        exact .kept _ hget
    · rw [withEntry, Registry.get?_ensure_of_ne n.registry hp] at he
      exact .kept e he
  | join k stanza q hrole hkind hnamed =>
    rw [registry_addIncoming] at he
    obtain ⟨e₀, he₀, hadd⟩ :=
      Registry.get?_alter_eq_some (f := (·.addIncoming (n.link k))) (fun _ => rfl) he
    rcases hadd with ⟨rfl, rfl⟩ | ⟨-, rfl⟩
    · exact .joined e₀ he₀ k stanza rfl hrole hkind hnamed
    · exact .kept _ he₀
  | offerKey k q =>
    rw [registry_offerKey] at he
    exact .kept e he
  | flush k =>
    rw [registry_flush] at he
    exact .kept e he
  | stop k force =>
    rw [registry_stop] at he
    exact .kept e he
  | grantVerdict k stanza q hkind htype hnamed hentry hrequest =>
    exact entryChange_trust (b := n.alter k (·.dropKeyRequest q.peer))
      (.verdict k stanza hkind htype hnamed hrequest) rfl
      (hlink (f := (·.dropKeyRequest q.peer)) (fun _ => rfl) k k)
      (view_session_alter Session.role (f := (·.dropKeyRequest q.peer)) (fun _ => rfl) n k k) he
  | grantCertificate k stanza pair q hkind hrole hpair hcheck htrusted =>
    exact entryChange_trust (.certificate k stanza pair hkind hrole hpair hcheck htrusted)
      rfl rfl rfl he
  | grantRelayed r t stanza q id hkind htype hid hnamed hentry hrequest htarget =>
    have hmember : t ∈ n.incomingKeys q := List.mem_of_find?_eq_some htarget
    have hstream : (n.session t).streamId = id := by simpa using List.find?_some htarget
    exact entryChange_trust (b := n.alter r (·.dropVerifyRequest q.peer id))
      (.relayed r t stanza id hkind htype hid hnamed hrequest hmember hstream) rfl
      (hlink (f := (·.dropVerifyRequest q.peer id)) (fun _ => rfl) r t)
      (view_session_alter Session.role (f := (·.dropVerifyRequest q.peer id)) (fun _ => rfl) n r t)
      he
  | establish q relayFor conn hopens =>
    rw [registry_establish] at he
    obtain ⟨e₀, he₀, hadd⟩ := Registry.get?_alter_eq_some
      (f := (·.addOutgoing ⟨conn, n.sessions.length⟩)) (fun _ => rfl) he
    rcases hadd with ⟨rfl, rfl⟩ | ⟨-, rfl⟩
    · refine EntryChange.linked (n := n) e₀ he₀ conn relayFor hopens ?_
      exact (session_establish _ p relayFor conn _).trans (if_pos rfl)
    · exact .kept _ he₀
  | close conn k hfind =>
    rw [registry_connectionClosed hfind] at he
    obtain ⟨e₀, he₀, hauth, hincoming, houtgoing⟩ := Registry.get?_foldl_unlink_eq_some he
    exact .reduced e₀ e he₀ hauth (fun link hlink => (hincoming link hlink).1)
      fun link hlink => (houtgoing link hlink).1
  | _ => exact .kept e he

section Session

variable {n m : Node τ} {c : Cause} {k : SessionKey} {s : Session}

omit [Transport τ] in
/-- A remark changes nothing about what is outstanding, trusted or waiting. -/
theorem Remark.ledger_eq {f : Session → Session} (h : Remark n k c f) (s : Session) :
    (f s).keyRequests = s.keyRequests ∧ (f s).verifyRequests = s.verifyRequests ∧
      (f s).trusted = s.trusted ∧ (f s).waiting = s.waiting := by
  cases h with
  | phase phase =>
    have hview := Session.view_setPhase (fun s => (s.keyRequests, s.verifyRequests, s.trusted,
      s.waiting)) (fun _ _ => rfl) phase s
    simpa only [Prod.mk.injEq] using hview
  | _ => exact ⟨rfl, rfl, rfl, rfl⟩

/-- A key of ours is outstanding on a session only after one was queued on it for its pair. -/
theorem Change.mem_keyRequests (h : Change n m c k s) {d : String} (hd : d ∈ s.keyRequests) :
    d ∈ (n.session k).keyRequests ∨
      ∃ p key accepted, MayPresent n k p c ∧ (n.session k).role = .outbound ∧
        (n.session k).pair = some p ∧ d = Text.lower p.peer ∧ (n.session k).isRelay = false ∧
        (n.session k).peerStreamId.isSome ∧
        (∃ secret, n.directory.secretFor p.own = .ok secret) ∧
        m.log = n.log ++ [.write (n.session k).conn ((n.session k).waiting ++
          [Stanza.key p.own p.peer key]) accepted] := by
  cases h with
  | remark f hremark =>
    rw [(hremark.ledger_eq _).1] at hd
    exact Or.inl hd
  | keyOffered p id secret hmay hrole hpair hrelay hid hsecret accepted hlog =>
    have hinsert : d ∈ (n.session k).keyRequests.insert (Text.lower p.peer) := hd
    rcases List.mem_insert_iff.mp hinsert with heq | hold
    · exact Or.inr ⟨p, _, accepted, hmay, hrole, hpair, heq, hrelay, by rw [hid]; rfl,
        ⟨secret, hsecret⟩, hlog⟩
    · exact Or.inl hold
  | granted base p hgrants hbase => exact Or.inl ((Session.granted_of_eq hbase).keyRequests d hd)
  | accepted | opened => cases hd
  | _ => exact Or.inl hd

/-- A request to verify is outstanding on a session only after it was queued on it. -/
theorem Change.mem_verifyRequests (h : Change n m c k s) {q : String × String}
    (hq : q ∈ s.verifyRequests) :
    q ∈ (n.session k).verifyRequests ∨
      ∃ p key, Asks n p q.2 key c ∧ Carries n p k ∧ q.1 = Text.lower p.peer := by
  cases h with
  | remark f hremark =>
    rw [(hremark.ledger_eq _).2.1] at hq
    exact Or.inl hq
  | requestQueued p id key hasks hcarries =>
    rcases List.mem_insert_iff.mp hq with heq | hold
    · subst heq
      exact Or.inr ⟨p, key, hasks, hcarries, rfl⟩
    · exact Or.inl hold
  | requestAnswered p id => exact Or.inl (List.mem_filter.mp hq).1
  | granted base p hgrants hbase => exact Or.inl ((Session.granted_of_eq hbase).verifyRequests q hq)
  | accepted | opened => cases hq
  | _ => exact Or.inl hq

theorem Change.isTrustedFor (h : Change n m c k s) {p : DomainPair} (hp : s.isTrustedFor p) :
    (n.session k).isTrustedFor p ∨ Grants n p k c := by
  cases h with
  | remark f hremark =>
    rw [Session.isTrustedFor, (hremark.ledger_eq _).2.2.1] at hp
    exact Or.inl hp
  | granted base q hgrants hbase =>
    rw [Session.isTrustedFor, (Session.granted_of_eq hbase).trusted, List.contains_iff_mem,
      List.mem_insert_iff] at hp
    rcases hp with rfl | hold
    · exact Or.inr hgrants
    · exact Or.inl (List.contains_iff_mem.mpr hold)
  | accepted | opened => cases hp
  | _ => exact Or.inl hp

/-- What is noted of the other side changes only by a handshake or a header. -/
theorem Change.notes_cases (h : Change n m c k s) :
    s.notes = (n.session k).notes ∨
      (∃ conn trust, c = .call (.tlsCompleted conn trust) ∧
        s = (n.session k).recordTls trust) ∨
      ∃ header id, c = .header k header ∧ header.id = some id ∧
        s = (n.session k).setPeerStreamId id := by
  cases h with
  | remark f hremark =>
    cases hremark with
    | phase phase => exact Or.inl (Session.view_setPhase Session.notes (fun _ _ => rfl) phase _)
    | tls conn trust => exact Or.inr (Or.inl ⟨conn, trust, rfl, rfl⟩)
    | peerStream header id hrole hid => exact Or.inr (Or.inr ⟨header, id, rfl, hid, rfl⟩)
    | _ => exact Or.inl rfl
  | granted base q hgrants hbase => exact Or.inl (Session.granted_of_eq hbase).notes
  | accepted conn address hk | opened conn p relayFor hk =>
    rw [session_of_length_le (Nat.le_of_eq hk.symm)]
    exact Or.inl rfl
  | _ =>
    generalize n.session k = t
    exact Or.inl rfl

/-- The outcome of a certificate check comes only from the transport. -/
theorem Change.trust_eq (h : Change n m c k s) (htrust : s.trust = .trusted) :
    (n.session k).trust = .trusted ∨ ∃ conn trust, c = .call (.tlsCompleted conn trust) := by
  rcases h.notes_cases with hsame | ⟨conn, trust, hcause, -⟩ | ⟨header, id, -, -, rfl⟩
  · exact Or.inl ((congrArg (·.2.1) hsame).symm.trans htrust)
  · exact Or.inr ⟨conn, trust, hcause⟩
  · exact Or.inl htrust

/-- A connection that we opened stays bound to the pair it was opened for. -/
theorem Change.pair_eq (h : Change n m c k s) (hrole : (n.session k).role = .outbound)
    {pair : DomainPair} (hpair : (n.session k).pair = some pair) : s.pair = some pair := by
  have hk := lt_length_of_pair hpair
  cases h with
  | remark f hremark =>
    cases hremark with
    | phase phase => exact (Session.view_setPhase Session.pair (fun _ _ => rfl) phase _).trans hpair
    | headerPair header other hinbound =>
      rw [hrole] at hinbound
      cases hinbound
    | adopt stanza other => exact (congrArg _ (Session.adoptPair_of_pair hpair other)).trans hpair
    | _ => exact hpair
  | granted base q hgrants hbase => exact (Session.granted_of_eq hbase).pair.trans hpair
  | accepted conn address hnew => exact absurd hk (Nat.not_lt.mpr (Nat.le_of_eq hnew.symm))
  | opened conn q relayFor hnew => exact absurd hk (Nat.not_lt.mpr (Nat.le_of_eq hnew.symm))
  | _ => exact hpair

end Session

section Links

variable {n m : Node τ} {c : Cause} {k : SessionKey} {p : DomainPair}

omit [Transport τ] in
theorem mem_incomingKeys_iff :
    k ∈ n.incomingKeys p ↔
      ∃ e, n.registry.get? p = some e ∧ ∃ link ∈ e.incoming, link.session = k := by
  unfold incomingKeys
  cases hget : n.registry.get? p with
  | none => simp
  | some e => simp

omit [Transport τ] in
theorem mem_outgoingKeys_iff :
    k ∈ n.outgoingKeys p ↔
      ∃ e, n.registry.get? p = some e ∧ ∃ link ∈ e.outgoing, link.session = k := by
  unfold outgoingKeys
  cases hget : n.registry.get? p with
  | none => simp
  | some e => simp

/-- The traffic of a pair goes over an open link of the pair that is trusted for it. -/
theorem of_route? (h : n.route? p = some k) :
    n.registry.isAuthenticated p ∧ k ∈ n.outgoingKeys p ∧ (n.session k).isTrustedFor p ∧
      n.isOpen k := by
  unfold route? at h
  split at h
  · rename_i hauth
    have hlink : (n.session k).isTrustedFor p ∧ n.isOpen k := by simpa using List.find?_some h
    exact ⟨hauth, List.mem_of_find?_eq_some h, hlink⟩
  · cases h

/-- A question about a pair goes over an open link of the pair that is no relay. -/
theorem of_usableOutgoing? (h : n.usableOutgoing? p = some k) :
    k ∈ n.outgoingKeys p ∧ (n.session k).isRelay = false ∧ n.isOpen k := by
  have hcarrier : k ∈ n.carriers p := by
    unfold usableOutgoing? at h
    split at h
    · rename_i j hj
      cases h
      exact List.mem_of_find?_eq_some hj
    · exact List.mem_of_head? h
  simpa [carriers] using hcarrier

/-- An incoming link of a pair was one before, or a dialback stanza on it names the pair. -/
theorem Move.mem_incomingKeys (h : Move c n m) (hk : k ∈ m.incomingKeys p) :
    k ∈ n.incomingKeys p ∨ (n.session k).role = .inbound ∧ ∃ stanza, c = .heard k stanza ∧
      (DialbackKind.of? stanza).isSome ∧ n.directory.pairNamed? stanza = some p := by
  obtain ⟨e', he', link, hlink, rfl⟩ := mem_incomingKeys_iff.mp hk
  have hold : ∀ e, n.registry.get? p = some e → link ∈ e.incoming →
      link.session ∈ n.incomingKeys p :=
    fun e he hmem => mem_incomingKeys_iff.mpr ⟨e, he, link, hmem, rfl⟩
  cases h.entryChange he' with
  | kept _ he => exact Or.inl (hold e' he hlink)
  | fresh => cases hlink
  | reduced e _ he hauth hincoming => exact Or.inl (hold e he (hincoming link hlink))
  | joined e he j stanza hheard hrole hkind hnamed =>
    rcases Link.eq_or_mem_of_mem_insert hlink with rfl | hmem
    · exact Or.inr ⟨hrole, stanza, hheard, hkind, hnamed⟩
    · exact Or.inl (hold e he hmem)
  | linked e he => exact Or.inl (hold e he hlink)
  | grantedInbound e he j hgrants hrole =>
    rcases Link.eq_or_mem_of_mem_insert hlink with rfl | hmem
    · cases hgrants with
      | verdict _ stanza hkind htype hnamed =>
        exact Or.inr ⟨hrole, stanza, rfl, Option.isSome_iff_exists.mpr ⟨_, hkind⟩, hnamed⟩
      | certificate _ stanza pair hkind houtbound =>
        rw [hrole] at houtbound
        cases houtbound
      | relayed r _ stanza id hkind htype hid hnamed hrequest hmember => exact Or.inl hmember
    · exact Or.inl (hold e he hmem)
  | grantedOutbound e he => exact Or.inl (hold e he hlink)

/-- An outgoing link of a pair was one before, or it was opened for the pair, or the pair is granted
to it. -/
theorem Move.mem_outgoingKeys (h : Move c n m) (hk : k ∈ m.outgoingKeys p) :
    k ∈ n.outgoingKeys p ∨
      (∃ conn relayFor id, m.session k = (Session.opened conn p relayFor id).join p) ∨
      (n.session k).role = .outbound ∧ Grants n p k c := by
  obtain ⟨e', he', link, hlink, rfl⟩ := mem_outgoingKeys_iff.mp hk
  have hold : ∀ e, n.registry.get? p = some e → link ∈ e.outgoing →
      link.session ∈ n.outgoingKeys p :=
    fun e he hmem => mem_outgoingKeys_iff.mpr ⟨e, he, link, hmem, rfl⟩
  cases h.entryChange he' with
  | kept _ he => exact Or.inl (hold e' he hlink)
  | fresh => cases hlink
  | reduced e _ he hauth hincoming houtgoing => exact Or.inl (hold e he (houtgoing link hlink))
  | joined e he => exact Or.inl (hold e he hlink)
  | linked e he conn relayFor hopens hsession =>
    rcases Link.eq_or_mem_of_mem_insert hlink with rfl | hmem
    · exact Or.inr (Or.inl ⟨conn, relayFor, _, hsession⟩)
    · exact Or.inl (hold e he hmem)
  | grantedInbound e he => exact Or.inl (hold e he hlink)
  | grantedOutbound e he j hgrants hrole =>
    rcases Link.eq_or_mem_of_mem_insert hlink with rfl | hmem
    · exact Or.inr (Or.inr ⟨hrole, hgrants⟩)
    · exact Or.inl (hold e he hmem)

/-- A pair becomes trusted only with a session that it is granted to. -/
theorem Move.isAuthenticated (h : Move c n m) (hp : m.registry.isAuthenticated p) :
    n.registry.isAuthenticated p ∨ ∃ k, Grants n p k c := by
  unfold Registry.isAuthenticated at hp ⊢
  cases hget : m.registry.get? p with
  | none => simp [hget] at hp
  | some e' =>
    have hauth' : e'.isAuthenticated := by simpa [hget] using hp
    have hold : ∀ e, n.registry.get? p = some e → e.isAuthenticated →
        ((n.registry.get? p).map (·.isAuthenticated)).getD false = true := by
      intro e he hauth
      rw [he]
      exact hauth
    cases h.entryChange hget with
    | kept _ he => exact Or.inl (hold e' he hauth')
    | fresh => cases hauth'
    | reduced e _ he hauth => exact Or.inl (hold e he (hauth ▸ hauth'))
    | joined e he => exact Or.inl (hold e he hauth')
    | linked e he => exact Or.inl (hold e he hauth')
    | grantedInbound e he k hgrants => exact Or.inr ⟨k, hgrants⟩
    | grantedOutbound e he k hgrants => exact Or.inr ⟨k, hgrants⟩

end Links

end Node

end Federation
