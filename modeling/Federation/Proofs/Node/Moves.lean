import Federation.Proofs.Node.Move
import Federation.Proofs.Registry.Access

/-!
Every event is a sequence of moves. The one fact about the state that this needs is that the
registry holds canonical pairs only: then a pair that is stored is what the check of it returns, and
a cause names the pair that a move is about whatever is stored at the time.
-/

namespace Federation

namespace Registry

theorem isSome_get?_alter {f : TrustEntry → TrustEntry} (hf : ∀ e, (f e).pair = e.pair)
    (r : Registry) (pair other : DomainPair) :
    ((r.alter pair f).get? other).isSome = (r.get? other).isSome := by
  by_cases hother : other = pair
  · rw [hother, get?_alter_self hf, Option.isSome_map]
  · rw [get?_alter_of_ne hf r hother]

theorem isSome_get?_ensure (r : Registry) (pair other : DomainPair) :
    ((r.ensure pair).get? other).isSome ↔ other = pair ∨ (r.get? other).isSome := by
  by_cases hother : other = pair
  · simp [hother, get?_ensure_self]
  · simp [hother, get?_ensure_of_ne r hother]

/-- An entry that is there after a connection has left pairs was there before. -/
theorem isSome_get?_of_foldl_unlink {joined : List DomainPair} {conn : ConnId} {r : Registry}
    {other : DomainPair}
    (h : ((joined.foldl (fun r pair => r.unlink pair conn) r).get? other).isSome) :
    (r.get? other).isSome := by
  rw [get?_foldl_unlink] at h
  cases hget : r.get? other with
  | none => simp [hget] at h
  | some e => rfl

end Registry

theorem Directory.isCanonical_of_pairNamed? {d : Directory} {stanza : Element} {p : DomainPair}
    (h : d.pairNamed? stanza = some p) : p.IsCanonical d.isServed := by
  unfold pairNamed? at h
  split at h
  · rename_i recipient sender _ _
    cases hcheck : DomainPair.checked (DomainPair.ofAddresses recipient sender).own
        (DomainPair.ofAddresses recipient sender).peer d.isServed with
    | error e => simp [hcheck, Except.toOption] at h
    | ok q =>
      have hq : q = p := by simpa [hcheck, Except.toOption] using h
      exact hq ▸ DomainPair.isCanonical_of_checked hcheck
  · cases h

namespace Node

variable {τ : Type}

def HasCanonicalEntries (n : Node τ) : Prop :=
  ∀ p, (n.registry.get? p).isSome → p.IsCanonical n.directory.isServed

/-- Then the short way over a stored pair leads where the check leads. -/
theorem HasCanonicalEntries.canonical_eq {n : Node τ} (h : n.HasCanonicalEntries)
    (pair : DomainPair) :
    n.registry.canonical n.directory.isServed pair =
      DomainPair.checked pair.own pair.peer n.directory.isServed :=
  Registry.canonical_eq_checked h pair

theorem Concerns.isCanonical {n : Node τ} {c : Cause} {p : DomainPair} (h : Concerns n p c) :
    p.IsCanonical n.directory.isServed := by
  cases h with
  | named k stanza hkind hnamed => exact Directory.isCanonical_of_pairNamed? hnamed
  | own k stanza pair hkind hrole hpair hcheck => exact DomainPair.isCanonical_of_checked hcheck
  | opening pair relayFor hcheck => exact DomainPair.isCanonical_of_checked hcheck
  | asking pair id key hcheck => exact DomainPair.isCanonical_of_checked hcheck

theorem Asks.concerns {p : DomainPair} {id key : String} {n : Node τ} {c : Cause}
    (h : Asks n p id key c) :
    Concerns n p c := by
  cases h with
  | caller pair hcheck => exact .asking pair id key hcheck
  | presented k stanza hk hkind htype hnamed =>
    exact .named k stanza (Option.isSome_iff_exists.mpr ⟨_, hkind⟩) hnamed

theorem Opens.concerns {p : DomainPair} {relayFor : Option String} {n : Node τ} {c : Cause}
    (h : Opens n p relayFor c) :
    Concerns n p c := by
  cases h with
  | caller pair relayFor hcheck => exact .opening pair relayFor hcheck
  | relay id key hasks => exact hasks.concerns

theorem registry_addLink (n : Node τ) (pair : DomainPair) (k : SessionKey) :
    ∃ f : TrustEntry → TrustEntry, (∀ e, (f e).pair = e.pair) ∧
      (n.addLink pair k).registry = n.registry.alter pair f := by
  unfold addLink
  split
  · exact ⟨(·.addIncoming (n.link k)), fun _ => rfl, rfl⟩
  · exact ⟨(·.addOutgoing (n.link k)), fun _ => rfl, rfl⟩

theorem isSome_get?_trust (n : Node τ) (pair other : DomainPair) (k : SessionKey) :
    ((n.trust pair k).registry.get? other).isSome = (n.registry.get? other).isSome := by
  obtain ⟨f, hf, haddLink⟩ := registry_addLink n pair k
  rw [registry_trust, Registry.isSome_get?_alter (f := TrustEntry.authenticate) (fun _ => rfl),
    haddLink, Registry.isSome_get?_alter hf]

/-- An entry that is made for a pair has no links. -/
theorem view_get?_withEntry {α : Type} (view : TrustEntry → List α)
    (hview : ∀ p, view { pair := p } = []) (n : Node τ) (p q : DomainPair) :
    (match (n.withEntry p).registry.get? q with
      | some e => view e
      | none => []) =
    match n.registry.get? q with
      | some e => view e
      | none => [] := by
  unfold withEntry
  by_cases hq : q = p
  · subst hq
    rw [Registry.get?_ensure_self]
    cases n.registry.get? q with
    | some e => rfl
    | none => exact hview q
  · rw [Registry.get?_ensure_of_ne n.registry hq]

theorem linkKeys_withEntry (n : Node τ) (p q : DomainPair) :
    (n.withEntry p).linkKeys q = n.linkKeys q :=
  view_get?_withEntry (fun e => e.links.map Link.session) (fun _ => rfl) n p q

theorem incomingKeys_withEntry (n : Node τ) (p q : DomainPair) :
    (n.withEntry p).incomingKeys q = n.incomingKeys q :=
  view_get?_withEntry (fun e => e.incoming.map Link.session) (fun _ => rfl) n p q

theorem outgoingKeys_withEntry (n : Node τ) (p q : DomainPair) :
    (n.withEntry p).outgoingKeys q = n.outgoingKeys q :=
  view_get?_withEntry (fun e => e.outgoing.map Link.session) (fun _ => rfl) n p q

section TakeIn

variable (n : Node τ) (k : SessionKey) (spelled p : DomainPair)

theorem session_takeIn (j : SessionKey) :
    (n.takeIn k spelled p).session j =
      if j = k ∧ k < n.sessions.length then
        if (n.session k).role = .inbound then ((n.session j).adoptPair spelled).join p
        else (n.session j).adoptPair spelled
      else n.session j := by
  have hadopt := session_alter n k j (·.adoptPair spelled)
  have hrole := view_session_alter Session.role (f := (·.adoptPair spelled)) (fun _ => rfl) n k k
  have hentry : ∀ i, ((n.alter k (·.adoptPair spelled)).withEntry p).session i =
      (n.alter k (·.adoptPair spelled)).session i := fun _ => rfl
  have hlength : ((n.alter k (·.adoptPair spelled)).withEntry p).sessions.length =
      n.sessions.length := length_sessions_alter n k _
  unfold takeIn
  simp only [hentry, hrole]
  by_cases hinbound : (n.session k).role = .inbound
  · simp only [hinbound, if_true]
    rw [session_addIncoming, hentry, hadopt, hlength]
    split <;> rfl
  · simp only [hinbound, if_false]
    rw [hentry, hadopt]

/-- Only the pair of the session and the pairs that it has joined may change. -/
theorem view_session_takeIn {α : Type} (view : Session → α)
    (hadopt : ∀ s, view (s.adoptPair spelled) = view s) (hjoin : ∀ s, view (s.join p) = view s)
    (j : SessionKey) : view ((n.takeIn k spelled p).session j) = view (n.session j) := by
  rw [session_takeIn]
  split
  · split
    · exact (hjoin _).trans (hadopt _)
    · exact hadopt _
  · rfl

/-- So it is with what is noted on the session besides. -/
theorem view_session_takeIn_alter {α : Type} (view : Session → α)
    (hadopt : ∀ s, view (s.adoptPair spelled) = view s) (hjoin : ∀ s, view (s.join p) = view s)
    {f : Session → Session} (hf : ∀ s, view (f s) = view s) (j : SessionKey) :
    view (((n.takeIn k spelled p).alter k f).session j) = view (n.session j) :=
  (view_session_alter view hf _ k j).trans (view_session_takeIn n k spelled p view hadopt hjoin j)

theorem hasKeyRequest_takeIn (d : String) (j : SessionKey) :
    ((n.takeIn k spelled p).session j).hasKeyRequest d = (n.session j).hasKeyRequest d :=
  view_session_takeIn n k spelled p (·.hasKeyRequest d) (fun _ => rfl) (fun _ => rfl) j

theorem hasVerifyRequest_takeIn (d id : String) (j : SessionKey) :
    ((n.takeIn k spelled p).session j).hasVerifyRequest d id =
      (n.session j).hasVerifyRequest d id :=
  view_session_takeIn n k spelled p (·.hasVerifyRequest d id) (fun _ => rfl) (fun _ => rfl) j

@[simp] theorem length_sessions_takeIn :
    (n.takeIn k spelled p).sessions.length = n.sessions.length := by
  unfold takeIn
  simp only
  split
  · exact (length_sessions_addIncoming _ p k).trans (length_sessions_alter n k _)
  · exact length_sessions_alter n k _

theorem directory_takeIn : (n.takeIn k spelled p).directory = n.directory := by
  unfold takeIn
  simp only
  split <;> rfl

theorem settings_takeIn : (n.takeIn k spelled p).settings = n.settings := by
  unfold takeIn
  simp only
  split <;> rfl

theorem live_takeIn : (n.takeIn k spelled p).live = n.live := by
  unfold takeIn
  simp only
  split <;> rfl

theorem transport_takeIn : (n.takeIn k spelled p).transport = n.transport := by
  unfold takeIn
  simp only
  split <;> rfl

theorem log_takeIn : (n.takeIn k spelled p).log = n.log := by
  unfold takeIn
  simp only
  split <;> rfl

theorem isSome_get?_takeIn : ((n.takeIn k spelled p).registry.get? p).isSome := by
  have hentry := (Registry.isSome_get?_ensure n.registry p p).mpr (Or.inl rfl)
  unfold takeIn
  simp only
  split
  · rw [registry_addIncoming, Registry.isSome_get?_alter
      (f := (·.addIncoming (Node.link _ k))) (fun _ => rfl)]
    exact hentry
  · exact hentry

end TakeIn

theorem registry_establish (n : Node τ) (pair : DomainPair) (relayFor : Option String)
    (conn : ConnId) : (n.establish pair relayFor conn).registry =
      n.registry.alter pair fun e => e.addOutgoing ⟨conn, n.sessions.length⟩ := by
  simp [establish, register, addOutgoing, alter, link, addSession, session, Session.opened]

theorem session_establish (n : Node τ) (pair : DomainPair) (relayFor : Option String)
    (conn : ConnId) (j : SessionKey) :
    (n.establish pair relayFor conn).session j =
      if j = n.sessions.length then
        (Session.opened conn pair relayFor n.nextIdentifier).join pair
      else n.session j := by
  have hsame : (n.establish pair relayFor conn).session j =
      ((n.addSession (.opened conn pair relayFor n.nextIdentifier)).addOutgoing pair
        n.sessions.length).session j := rfl
  have hlength : n.sessions.length <
      (n.addSession (.opened conn pair relayFor n.nextIdentifier)).sessions.length := by
    simp [addSession]
  rw [hsame, session_addOutgoing, session_addSession]
  simp only [hlength, and_true]
  split <;> rfl

theorem length_sessions_establish (n : Node τ) (pair : DomainPair) (relayFor : Option String)
    (conn : ConnId) :
    (n.establish pair relayFor conn).sessions.length = n.sessions.length + 1 := by
  simp [establish, register, addOutgoing, addSession]

theorem registry_connectionClosed {n : Node τ} {conn : ConnId} {k : SessionKey}
    (h : n.find? conn = some k) :
    (n.connectionClosed conn).registry =
      (n.session k).joined.foldl (fun r pair => r.unlink pair (n.session k).conn) n.registry := by
  have hsession : ((((n.unregister conn).alter k Session.beginClose).discard k).2).session k =
      (((n.unregister conn).alter k Session.beginClose).alter k Session.clearQueue).session k := rfl
  have hjoined := view_session_alter Session.joined (f := Session.clearQueue) (fun _ => rfl)
    ((n.unregister conn).alter k Session.beginClose) k k
  have hjoined' := view_session_alter Session.joined (f := Session.beginClose) (fun _ => rfl)
    (n.unregister conn) k k
  have hconn := view_session_alter Session.conn (f := Session.clearQueue) (fun _ => rfl)
    ((n.unregister conn).alter k Session.beginClose) k k
  have hconn' := view_session_alter Session.conn (f := Session.beginClose) (fun _ => rfl)
    (n.unregister conn) k k
  have hsame : (n.unregister conn).session k = n.session k := rfl
  simp only [connectionClosed, h, detach, hsession, hjoined, hjoined', hconn, hconn', hsame]
  rfl

variable [Transport τ]

@[simp] theorem registry_stop (n : Node τ) (k : SessionKey) (force : Bool) :
    (n.stop k force).registry = n.registry := by
  unfold stop
  split <;> rfl

@[simp] theorem registry_flush (n : Node τ) (k : SessionKey) :
    (n.flush k).2.registry = n.registry := by
  rw [flush_eq]
  split <;> rfl

theorem session_offerKey (n : Node τ) (k : SessionKey) (p : DomainPair) (key : String)
    (j : SessionKey) :
    (n.offerKey k p key).session j =
      if j = k ∧ k < n.sessions.length then
        { (n.session j).addKeyRequest p.peer with
          phase := ((n.session j).setPhase .keySent).phase, waiting := [] }
      else n.session j := by
  unfold offerKey
  rw [session_flush, session_alter, session_alter, session_alter]
  simp only [length_sessions_alter]
  split
  · by_cases hfinal : (n.session j).phase.isFinal <;>
      simp [Session.setPhase, Session.enqueue, Session.addKeyRequest, Session.clearQueue, hfinal]
  · rfl

theorem length_sessions_offerKey (n : Node τ) (k : SessionKey) (p : DomainPair) (key : String) :
    (n.offerKey k p key).sessions.length = n.sessions.length := by
  simp [offerKey]

theorem registry_offerKey (n : Node τ) (k : SessionKey) (p : DomainPair) (key : String) :
    (n.offerKey k p key).registry = n.registry := by
  simp [offerKey]

theorem log_flush (n : Node τ) (k : SessionKey) :
    (n.flush k).2.log = n.log ∨ ∃ accepted, (n.flush k).2.log =
      n.log ++ [.write (n.session k).conn (n.session k).waiting accepted] := by
  rw [flush_eq]
  split
  · exact Or.inl rfl
  · exact Or.inr ⟨_, rfl⟩

theorem log_flush_eq {n : Node τ} {k : SessionKey} (hwaiting : (n.session k).waiting ≠ []) :
    (n.flush k).2.log = (n.write (n.session k).conn (n.session k).waiting).2.log := by
  rw [flush_eq, if_neg hwaiting]
  rfl

theorem log_flush_of_mem {n : Node τ} {k : SessionKey} {e : Element}
    (he : e ∈ (n.session k).waiting) : ∃ accepted, (n.flush k).2.log =
      n.log ++ [.write (n.session k).conn (n.session k).waiting accepted] :=
  ⟨_, log_flush_eq (List.ne_nil_of_mem he)⟩

/-- A key that is offered is the last of what is written then. -/
theorem log_offerKey_eq {n : Node τ} {k : SessionKey} (hk : k < n.sessions.length) (p : DomainPair)
    (key : String) : (n.offerKey k p key).log = (n.write (n.session k).conn
      ((n.session k).waiting ++ [Stanza.key p.own p.peer key])).2.log := by
  let queued :=
    (n.alter k (·.addKeyRequest p.peer)).alter k (·.enqueue (Stanza.key p.own p.peer key))
  have hqueued : queued.session k =
      ((n.session k).addKeyRequest p.peer).enqueue (Stanza.key p.own p.peer key) := by
    simp only [queued]
    rw [session_alter_self (by simpa using hk), session_alter_self hk]
  have hview : ∀ {α : Type} (view : Session → α),
      (∀ (s : Session) (phase : Phase), view { s with phase := phase } = view s) →
      view ((queued.alter k (·.setPhase .keySent)).session k) = view (queued.session k) := by
    intro α view hphase
    exact view_session_alter view (Session.view_setPhase view hphase .keySent) _ _ _
  have hwaiting : ((queued.alter k (·.setPhase .keySent)).session k).waiting =
      (n.session k).waiting ++ [Stanza.key p.own p.peer key] := by
    rw [hview Session.waiting fun _ _ => rfl, hqueued]
    rfl
  have hconn : ((queued.alter k (·.setPhase .keySent)).session k).conn = (n.session k).conn := by
    rw [hview Session.conn fun _ _ => rfl, hqueued]
    rfl
  have hflush := log_flush_eq (n := queued.alter k (·.setPhase .keySent)) (k := k)
    (by simp [hwaiting])
  rw [hwaiting, hconn] at hflush
  exact hflush

theorem log_offerKey {n : Node τ} {k : SessionKey} (hk : k < n.sessions.length) (p : DomainPair)
    (key : String) :
    ∃ accepted, (n.offerKey k p key).log = n.log ++ [.write (n.session k).conn
      ((n.session k).waiting ++ [Stanza.key p.own p.peer key]) accepted] :=
  ⟨_, log_offerKey_eq hk p key⟩

theorem live_flush (n : Node τ) (k : SessionKey) : (n.flush k).2.live = n.live := by
  rw [flush_eq]
  split <;> rfl

theorem directory_flush (n : Node τ) (k : SessionKey) :
    (n.flush k).2.directory = n.directory := by
  rw [flush_eq]
  split <;> rfl

theorem Move.directory_eq {n m : Node τ} {c : Cause} (h : Move c n m) :
    m.directory = n.directory := by
  cases h with
  | offerKey k p => exact directory_flush _ k
  | flush k hmay => exact directory_flush n k
  | stop k force =>
    unfold Node.stop
    split <;> rfl
  | grantVerdict | grantCertificate | grantRelayed => exact directory_trust _ _ _
  | close conn k hfind =>
    simp only [connectionClosed, hfind]
    rfl
  | _ => rfl

/-- Entries come only by the move that makes one. -/
theorem Move.isSome_get? {n m : Node τ} {c : Cause} (h : Move c n m) {p : DomainPair}
    (hp : (m.registry.get? p).isSome) : (n.registry.get? p).isSome ∨ Concerns n p c := by
  cases h with
  | ensure q hconcerns =>
    rcases (Registry.isSome_get?_ensure _ _ _).mp hp with rfl | hold
    · exact Or.inr hconcerns
    · exact Or.inl hold
  | join k stanza q hrole hkind hnamed hentry =>
    rw [registry_addIncoming, Registry.isSome_get?_alter
      (f := (·.addIncoming (n.link k))) (fun _ => rfl)] at hp
    exact Or.inl hp
  | offerKey k q =>
    rw [registry_offerKey] at hp
    exact Or.inl hp
  | flush k hmay =>
    rw [registry_flush] at hp
    exact Or.inl hp
  | stop k force =>
    rw [registry_stop] at hp
    exact Or.inl hp
  | grantVerdict | grantCertificate | grantRelayed =>
    rw [isSome_get?_trust] at hp
    exact Or.inl hp
  | establish q relayFor conn hopens hentry hconn =>
    have hsame := Registry.isSome_get?_alter
      (f := (·.addOutgoing ⟨conn, n.sessions.length⟩)) (fun _ => rfl) n.registry q p
    rw [registry_establish] at hp
    exact Or.inl (hsame.symm.trans hp)
  | close conn k hfind =>
    rw [registry_connectionClosed hfind] at hp
    exact Or.inl (Registry.isSome_get?_of_foldl_unlink hp)
  | _ => exact Or.inl hp

theorem Move.hasCanonicalEntries {n m : Node τ} {c : Cause} (h : Move c n m)
    (hn : n.HasCanonicalEntries) : m.HasCanonicalEntries := by
  intro p hp
  rw [h.directory_eq]
  rcases h.isSome_get? hp with hold | hconcerns
  · exact hn p hold
  · exact hconcerns.isCanonical

theorem Moves.hasCanonicalEntries {n m : Node τ} {c : Cause} (h : Moves c n m)
    (hn : n.HasCanonicalEntries) : m.HasCanonicalEntries :=
  h.kept (fun hmove hn => hmove.hasCanonicalEntries hn) hn

/-- A move adds at most one session: that of a peer, or one that we opened. -/
theorem Move.length_cases {n m : Node τ} {c : Cause} (h : Move c n m) :
    m.sessions.length = n.sessions.length ∨ m.sessions.length = n.sessions.length + 1 ∧
      ((∃ conn address, c = .call (.accept conn address) ∧
          m.session n.sessions.length = .accepted conn address n.nextIdentifier) ∨
        ∃ conn p relayFor, Opens n p relayFor c ∧ m.session n.sessions.length =
          (Session.opened conn p relayFor n.nextIdentifier).join p ∧
          Effect.connect p (some conn) ∈ m.log) := by
  cases h with
  | flush k hmay => exact Or.inl (length_sessions_flush n k)
  | stop k force => exact Or.inl (length_sessions_stop n k force)
  | close conn k hfind => exact Or.inl (length_sessions_connectionClosed hfind)
  | accept conn address =>
    refine Or.inr ⟨by simp [Node.accept, addSession, register], Or.inl ⟨conn, address, rfl, ?_⟩⟩
    exact session_addSession_self n _
  | establish p relayFor conn hopens hentry hconn =>
    refine Or.inr ⟨length_sessions_establish _ _ _ _, Or.inr ⟨conn, p, relayFor, hopens, ?_, ?_⟩⟩
    · exact (session_establish _ p relayFor conn _).trans (if_pos rfl)
    · have hlog : ((n.connect p).2.establish p relayFor conn).log =
          n.log ++ [.connect p (n.connect p).1.toOption] := rfl
      rw [hlog, hconn]
      exact List.mem_append_right _ List.mem_cons_self
  | offerKey k p => exact Or.inl (length_sessions_offerKey n k p _)
  | queueRequest => simp
  | remark | settle | join | grantVerdict | grantCertificate | grantRelayed => simp
  | _ => exact Or.inl rfl

theorem Move.length_le {n m : Node τ} {c : Cause} (h : Move c n m) :
    n.sessions.length ≤ m.sessions.length := by
  rcases h.length_cases with heq | ⟨heq, -⟩ <;> omega

/-- A move may add a session, but never makes another one of a session that is there. -/
theorem Move.identity_eq {n m : Node τ} {c : Cause} (h : Move c n m) {k : SessionKey}
    (hk : k < n.sessions.length) : (m.session k).identity = (n.session k).identity := by
  have halter : ∀ (n : Node τ) (j : SessionKey) (f : Session → Session)
      (_ : ∀ s, (f s).identity = s.identity),
      ((n.alter j f).session k).identity = (n.session k).identity :=
    fun n j f hf => view_session_alter Session.identity hf n j k
  have htrust : ∀ (n : Node τ) (p : DomainPair) (j : SessionKey),
      ((n.trust p j).session k).identity = (n.session k).identity := by
    intro n p j
    rw [session_trust]
    split <;> rfl
  cases h with
  | remark j f hremark =>
    apply halter
    intro s
    cases hremark with
    | phase phase => exact Session.view_setPhase Session.identity (fun _ _ => rfl) phase s
    | _ => rfl
  | join j stanza p =>
    rw [session_addIncoming]
    split <;> rfl
  | offerKey j p =>
    rw [session_offerKey]
    split <;> rfl
  | queueRequest =>
    rw [halter _ _ (·.enqueue _) (fun _ => rfl)]
    exact halter _ _ _ fun _ => rfl
  | flush j => exact view_session_flush n Session.identity (fun _ => rfl) j k
  | stop j force => exact view_session_stop n Session.identity (fun _ => rfl) j k force
  | grantVerdict | grantRelayed =>
    rw [htrust]
    exact halter _ _ _ fun _ => rfl
  | grantCertificate => exact htrust _ _ _
  | settle => exact halter _ _ _ fun _ => rfl
  | accept conn address =>
    have hsame : ((n.accept conn address).2).session k =
        (n.addSession (.accepted conn address n.nextIdentifier)).session k := rfl
    rw [hsame, session_addSession_of_lt hk]
  | establish p relayFor conn =>
    rw [session_establish, sessions_connect, if_neg (Nat.ne_of_lt hk)]
    rfl
  | close conn j hfind =>
    rw [session_connectionClosed hfind]
    split <;> rfl
  | _ => rfl

/-- A connection that gets a session gets the one that is made for it. -/
theorem Move.find?_eq_some {n m : Node τ} {c : Cause} (h : Move c n m) {conn : ConnId}
    {k : SessionKey} (hfind : m.find? conn = some k) :
    n.find? conn = some k ∨
      k = n.sessions.length ∧ k < m.sessions.length ∧ (m.session k).conn = conn := by
  have hsame : ∀ {m' : Node τ}, m'.live = n.live → m'.find? conn = some k →
      n.find? conn = some k := by
    intro m' hlive hfind'
    rwa [find?, hlive] at hfind'
  cases h with
  | offerKey j p =>
    refine Or.inl (hsame ?_ hfind)
    exact live_flush _ j
  | flush j => exact Or.inl (hsame (live_flush n j) hfind)
  | stop j force =>
    refine Or.inl (hsame ?_ hfind)
    unfold Node.stop
    split <;> rfl
  | grantVerdict | grantCertificate | grantRelayed =>
    refine Or.inl (hsame ?_ hfind)
    exact live_trust _ _ _
  | accept other address =>
    by_cases hother : conn = other
    · subst hother
      have hlast : (n.accept conn address).2.find? conn = some n.sessions.length :=
        find?_register_self _ _ _
      have hk : k = n.sessions.length := by simpa [hlast] using hfind.symm
      subst hk
      refine Or.inr ⟨rfl, by simp [Node.accept, addSession, register], ?_⟩
      exact congrArg Session.conn (session_addSession_self n _)
    · exact Or.inl ((find?_register_of_ne _ hother _).symm.trans hfind)
  | establish p relayFor other =>
    by_cases hother : conn = other
    · subst hother
      have hlast : ((n.connect p).2.establish p relayFor conn).find? conn =
          some n.sessions.length := find?_register_self _ _ _
      have hk : k = n.sessions.length := by simpa [hlast] using hfind.symm
      subst hk
      refine Or.inr ⟨rfl, ?_, ?_⟩
      · rw [length_sessions_establish]
        exact Nat.lt_succ_self _
      · rw [session_establish, sessions_connect, if_pos rfl]
        rfl
    · exact Or.inl ((find?_register_of_ne _ hother _).symm.trans hfind)
  | close other j hj =>
    refine Or.inl ?_
    have hlive : (n.connectionClosed other).find? conn = (n.unregister other).find? conn := by
      rw [find?, live_connectionClosed hj]
      rfl
    rw [hlive] at hfind
    by_cases hother : conn = other
    · rw [hother, find?_unregister_self] at hfind
      cases hfind
    · rwa [find?_unregister_of_ne n hother] at hfind
  | _ => exact Or.inl hfind

/-- What every node satisfies: its entries are canonical, and the session of a connection is there
and is the one of that connection. -/
structure WellFormed (n : Node τ) : Prop where
  entries : n.HasCanonicalEntries
  live : ∀ conn k, n.find? conn = some k → k < n.sessions.length ∧ (n.session k).conn = conn

theorem Move.wellFormed {n m : Node τ} {c : Cause} (h : Move c n m) (hn : n.WellFormed) :
    m.WellFormed where
  entries := h.hasCanonicalEntries hn.entries
  live := by
    intro conn k hfind
    rcases h.find?_eq_some hfind with hold | ⟨_, hnew⟩
    · obtain ⟨hk, hconn⟩ := hn.live conn k hold
      have hsame := Session.conn_eq (h.identity_eq hk)
      exact ⟨Nat.lt_of_lt_of_le hk h.length_le, hsame.trans hconn⟩
    · exact hnew

theorem Moves.wellFormed {n m : Node τ} {c : Cause} (h : Moves c n m) (hn : n.WellFormed) :
    m.WellFormed :=
  h.kept (fun hmove hn => hmove.wellFormed hn) hn

theorem Moves.directory_eq {n m : Node τ} {c : Cause} (h : Moves c n m) :
    m.directory = n.directory := by
  induction h with
  | refl => rfl
  | tail _ hmove ih => rw [hmove.directory_eq, ih]

theorem Moves.length_le {n m : Node τ} {c : Cause} (h : Moves c n m) :
    n.sessions.length ≤ m.sessions.length := by
  induction h with
  | refl => exact Nat.le_refl _
  | tail _ hmove ih => exact Nat.le_trans ih hmove.length_le

theorem Moves.identity_eq {n m : Node τ} {c : Cause} (h : Moves c n m) {k : SessionKey}
    (hk : k < n.sessions.length) : (m.session k).identity = (n.session k).identity := by
  induction h with
  | refl => rfl
  | tail hmoves hmove ih =>
    rw [hmove.identity_eq (Nat.lt_of_lt_of_le hk (Moves.length_le hmoves)), ih]

end Node

end Federation
