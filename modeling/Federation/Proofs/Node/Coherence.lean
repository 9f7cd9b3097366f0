import Federation.Proofs.Node.History

/-!
What sessions, links and the flags of pairs know of each other. A link belongs to a session whose
connection is there and that has joined the pair; a session of such a connection is a link of every
pair that it has joined, on the side of its role; and the pairs that it is trusted for are among
those, and trusted.

This needs that no connection gets a number that another one had: then the session of a connection
is never replaced.
-/

namespace Federation

def TrustEntry.side (e : TrustEntry) : Role → List Link
  | .inbound => e.incoming
  | .outbound => e.outgoing

def TrustEntry.add (role : Role) (link : Link) (e : TrustEntry) : TrustEntry :=
  match role with
  | .inbound => e.addIncoming link
  | .outbound => e.addOutgoing link

namespace TrustEntry

theorem pair_add (role : Role) (link : Link) (e : TrustEntry) :
    (e.add role link).pair = e.pair := by
  cases role <;> rfl

theorem isAuthenticated_add (role : Role) (link : Link) (e : TrustEntry) :
    (e.add role link).isAuthenticated = e.isAuthenticated := by
  cases role <;> rfl

theorem side_add_self (role : Role) (link : Link) (e : TrustEntry) :
    (e.add role link).side role = link.insert (e.side role) := by
  cases role <;> rfl

theorem side_add_of_ne {role side : Role} (hne : side ≠ role) (link : Link) (e : TrustEntry) :
    (e.add role link).side side = e.side side := by
  cases role <;> cases side <;> first | rfl | exact absurd rfl hne

theorem mem_side_add_of_mem {role side : Role} {link l : Link} {e : TrustEntry}
    (h : l ∈ e.side side) : l ∈ (e.add role link).side side := by
  by_cases hside : side = role
  · subst hside
    rw [side_add_self]
    exact Link.mem_insert_of_mem h
  · rwa [side_add_of_ne hside]

theorem mem_side_unlink {side : Role} {conn : ConnId} {l : Link} {e : TrustEntry} :
    l ∈ (e.unlink conn).side side ↔ l ∈ e.side side ∧ l.conn ≠ conn := by
  cases side <;> exact Link.mem_remove

theorem side_authenticate (side : Role) (e : TrustEntry) :
    e.authenticate.side side = e.side side := by
  cases side <;> rfl

theorem mem_links_of_mem_side {side : Role} {l : Link} {e : TrustEntry} (h : l ∈ e.side side) :
    l ∈ e.links := by
  cases side with
  | inbound => exact List.mem_append_right _ h
  | outbound => exact List.mem_append_left _ h

theorem mem_links_iff {e : TrustEntry} {l : Link} : l ∈ e.links ↔ ∃ side, l ∈ e.side side := by
  constructor
  · intro hl
    rcases List.mem_append.mp hl with houtgoing | hincoming
    · exact ⟨.outbound, houtgoing⟩
    · exact ⟨.inbound, hincoming⟩
  · rintro ⟨side, hl⟩
    exact mem_links_of_mem_side hl

end TrustEntry

namespace Registry

theorem isAuthenticated_eq_true {r : Registry} {p : DomainPair} :
    r.isAuthenticated p ↔ ∃ e, r.get? p = some e ∧ e.isAuthenticated := by
  unfold isAuthenticated
  cases r.get? p <;> simp

theorem get?_ensure_of_eq_some {r : Registry} {p q : DomainPair} {e : TrustEntry}
    (h : r.get? q = some e) : (r.ensure p).get? q = some e := by
  by_cases hq : q = p
  · subst hq
    rw [get?_ensure_self, h, Option.getD_some]
  · rw [get?_ensure_of_ne r hq, h]

/-- A pair that keeps a link of another connection stays, and is trusted as before. -/
theorem exists_get?_foldl_unlink {joined : List DomainPair} {conn : ConnId} {r : Registry}
    {p : DomainPair} {e : TrustEntry} (he : r.get? p = some e) {side : Role} {l : Link}
    (hl : l ∈ e.side side) (hne : l.conn ≠ conn) :
    ∃ e', (joined.foldl (fun r pair => r.unlink pair conn) r).get? p = some e' ∧
      e'.isAuthenticated = e.isAuthenticated ∧ l ∈ e'.side side := by
  rw [get?_foldl_unlink, he]
  split
  · have hmem : l ∈ (e.unlink conn).side side := TrustEntry.mem_side_unlink.mpr ⟨hl, hne⟩
    have hlinks : (e.unlink conn).links.isEmpty = false := by
      rw [List.isEmpty_eq_false_iff]
      exact List.ne_nil_of_mem (TrustEntry.mem_links_of_mem_side hmem)
    exact ⟨e.unlink conn, by simp [Option.filter, hlinks], rfl, hmem⟩
  · exact ⟨e, rfl, rfl, hl⟩

end Registry

def Session.bonds (s : Session) : ConnId × Role × List DomainPair × List DomainPair :=
  (s.conn, s.role, s.joined, s.trusted)

namespace Node

variable {τ : Type}

theorem mem_linkKeys_iff {n : Node τ} {p : DomainPair} {k : SessionKey} :
    k ∈ n.linkKeys p ↔
      ∃ e, n.registry.get? p = some e ∧ ∃ side, ∃ l ∈ e.side side, l.session = k := by
  have hlinks : ∀ e : TrustEntry,
      k ∈ e.links.map (·.session) ↔ ∃ side, ∃ l ∈ e.side side, l.session = k := by
    intro e
    simp only [List.mem_map, TrustEntry.mem_links_iff]
    constructor
    · rintro ⟨l, ⟨side, hl⟩, hsession⟩
      exact ⟨side, l, hl, hsession⟩
    · rintro ⟨side, l, hl, hsession⟩
      exact ⟨l, ⟨side, hl⟩, hsession⟩
  unfold linkKeys
  cases hget : n.registry.get? p with
  | none => simp
  | some e => simp [hlinks]

def IsLive (n : Node τ) (k : SessionKey) : Prop :=
  n.find? (n.session k).conn = some k

structure Coherent (n : Node τ) : Prop where
  links : ∀ p e, n.registry.get? p = some e → ∀ side, ∀ l ∈ e.side side,
    l.conn = (n.session l.session).conn ∧ n.IsLive l.session ∧ p ∈ (n.session l.session).joined
  joined : ∀ k, n.IsLive k → ∀ p ∈ (n.session k).joined,
    ∃ e, n.registry.get? p = some e ∧ n.link k ∈ e.side (n.session k).role
  trusted : ∀ k, n.IsLive k → ∀ p, (n.session k).isTrustedFor p →
    p ∈ (n.session k).joined ∧ n.registry.isAuthenticated p

theorem coherent_create (settings : Settings) (directory : Directory) (transport : τ)
    (issued : Nat) (identify : Nat → String) :
    (create settings directory transport issued identify).Coherent where
  links := fun _ _ he => by cases he
  joined := fun _ hlive => by cases hlive
  trusted := fun _ hlive => by cases hlive

/-- The links of a connection that is there belong to one session. -/
theorem Coherent.eq_link {n : Node τ} (h : n.Coherent) {p : DomainPair} {e : TrustEntry}
    (he : n.registry.get? p = some e) {side : Role} {l : Link} (hl : l ∈ e.side side)
    {k : SessionKey} (hlive : n.IsLive k) (hconn : l.conn = (n.session k).conn) :
    l = n.link k := by
  obtain ⟨hown, hlink, -⟩ := h.links p e he side l hl
  have hsession : l.session = k := by
    rw [IsLive, ← hown, hconn, hlive] at hlink
    exact (Option.some.inj hlink).symm
  obtain ⟨conn, session⟩ := l
  simp only at hconn hsession
  rw [hconn, hsession, link]

section Frame

variable {n m : Node τ} (h : n.Coherent)

include h

/-- A change that leaves links and bonds alone leaves them coherent. -/
theorem Coherent.of_eq (hregistry : m.registry = n.registry) (hlive : m.live = n.live)
    (hbonds : ∀ k, (m.session k).bonds = (n.session k).bonds) : m.Coherent := by
  have hconn : ∀ k, (m.session k).conn = (n.session k).conn := fun k => congrArg (·.1) (hbonds k)
  have hrole : ∀ k, (m.session k).role = (n.session k).role := fun k => congrArg (·.2.1) (hbonds k)
  have hjoined : ∀ k, (m.session k).joined = (n.session k).joined :=
    fun k => congrArg (·.2.2.1) (hbonds k)
  have htrusted : ∀ k, (m.session k).trusted = (n.session k).trusted :=
    fun k => congrArg (·.2.2.2) (hbonds k)
  have hisLive : ∀ k, m.IsLive k ↔ n.IsLive k := by
    intro k
    rw [IsLive, IsLive, find?, find?, hlive, hconn]
  refine ⟨?_, ?_, ?_⟩
  · intro p e he side l hl
    rw [hregistry] at he
    rw [hconn, hisLive, hjoined]
    exact h.links p e he side l hl
  · intro k hk p hp
    rw [hisLive] at hk
    rw [hjoined] at hp
    rw [hregistry, link, hconn, hrole]
    exact h.joined k hk p hp
  · intro k hk p hp
    rw [hisLive] at hk
    rw [Session.isTrustedFor, htrusted] at hp
    rw [hjoined, hregistry]
    exact h.trusted k hk p hp

theorem Coherent.alter {f : Session → Session} (hf : ∀ s, (f s).bonds = s.bonds)
    (k : SessionKey) : (n.alter k f).Coherent :=
  h.of_eq rfl rfl (view_session_alter Session.bonds hf n k)

theorem Coherent.withEntry (p : DomainPair) : (n.withEntry p).Coherent where
  links := by
    intro q e he side l hl
    by_cases hq : q = p
    · subst hq
      rw [Node.withEntry, Registry.get?_ensure_self] at he
      cases hget : n.registry.get? q with
      | some e₀ =>
        have hsame : e₀ = e := by simpa [hget] using he
        exact h.links q e (hsame ▸ hget) side l hl
      | none =>
        have hfresh : e = { pair := q } := by simpa [hget] using he.symm
        rw [hfresh] at hl
        cases side <;> cases hl
    · rw [Node.withEntry, Registry.get?_ensure_of_ne n.registry hq] at he
      exact h.links q e he side l hl
  joined := by
    intro k hk q hq
    obtain ⟨e, he, hl⟩ := h.joined k hk q hq
    exact ⟨e, Registry.get?_ensure_of_eq_some he, hl⟩
  trusted := by
    intro k hk q hq
    obtain ⟨hjoined, hauth⟩ := h.trusted k hk q hq
    obtain ⟨e, he, htrue⟩ := Registry.isAuthenticated_eq_true.mp hauth
    exact ⟨hjoined, Registry.isAuthenticated_eq_true.mpr
      ⟨e, Registry.get?_ensure_of_eq_some he, htrue⟩⟩

end Frame

section AddLink

variable (n : Node τ) (p : DomainPair) (k : SessionKey)

theorem registry_addLink_eq :
    (n.addLink p k).registry = n.registry.alter p (·.add (n.session k).role (n.link k)) := by
  unfold addLink
  cases (n.session k).role <;> rfl

theorem view_session_addLink {α : Type} (view : Session → α)
    (hjoin : ∀ s, view (s.join p) = view s) (j : SessionKey) :
    view ((n.addLink p k).session j) = view (n.session j) := by
  rw [session_addLink]
  split
  · exact hjoin _
  · rfl

theorem isLive_addLink (j : SessionKey) : (n.addLink p k).IsLive j ↔ n.IsLive j := by
  rw [IsLive, IsLive, find?, find?, live_addLink,
    view_session_addLink n p k Session.conn fun _ => rfl]

variable {n p k}

theorem mem_joined_addLink (hk : k < n.sessions.length) {j : SessionKey} {q : DomainPair} :
    q ∈ ((n.addLink p k).session j).joined ↔ q ∈ (n.session j).joined ∨ j = k ∧ q = p := by
  rw [session_addLink]
  by_cases hj : j = k
  · simp [hj, hk, Session.join, List.mem_insert_iff, or_comm]
  · simp [hj]

/-- An entry only gains links. -/
theorem exists_get?_addLink {q : DomainPair} {e : TrustEntry} (he : n.registry.get? q = some e) :
    ∃ e', (n.addLink p k).registry.get? q = some e' ∧ e'.isAuthenticated = e.isAuthenticated ∧
      ∀ side, ∀ l ∈ e.side side, l ∈ e'.side side := by
  rw [registry_addLink_eq]
  by_cases hq : q = p
  · subst hq
    rw [Registry.get?_alter_self (TrustEntry.pair_add _ _), he]
    exact ⟨_, rfl, TrustEntry.isAuthenticated_add _ _ e,
      fun side l hl => TrustEntry.mem_side_add_of_mem hl⟩
  · rw [Registry.get?_alter_of_ne (TrustEntry.pair_add _ _) n.registry hq]
    exact ⟨e, he, rfl, fun side l hl => hl⟩

/-- Of all links only that of the session may be new. -/
theorem of_get?_addLink {q : DomainPair} {e' : TrustEntry}
    (h : (n.addLink p k).registry.get? q = some e') {side : Role} {l : Link}
    (hl : l ∈ e'.side side) :
    l = n.link k ∧ q = p ∨ ∃ e, n.registry.get? q = some e ∧ l ∈ e.side side := by
  rw [registry_addLink_eq] at h
  obtain ⟨e, he, ⟨hq, rfl⟩ | ⟨-, rfl⟩⟩ :=
    Registry.get?_alter_eq_some (TrustEntry.pair_add _ _) h
  · by_cases hside : side = (n.session k).role
    · rw [hside, TrustEntry.side_add_self] at hl
      rcases Link.eq_or_mem_of_mem_insert hl with hnew | hmem
      · exact Or.inl ⟨hnew, hq⟩
      · exact Or.inr ⟨e, he, by rwa [hside]⟩
    · rw [TrustEntry.side_add_of_ne hside] at hl
      exact Or.inr ⟨e, he, hl⟩
  · exact Or.inr ⟨_, he, hl⟩

end AddLink

section Trust

variable {n : Node τ} {p q : DomainPair} {k : SessionKey}

/-- A grant marks the pair as trusted, and leaves the links as they are once that of the
session is there. -/
theorem exists_get?_trust {e : TrustEntry} (he : (n.addLink p k).registry.get? q = some e) :
    ∃ e', (n.trust p k).registry.get? q = some e' ∧ (∀ side, e'.side side = e.side side) ∧
      (e.isAuthenticated → e'.isAuthenticated) := by
  rw [registry_trust]
  by_cases hq : q = p
  · subst hq
    rw [Registry.get?_alter_self (f := TrustEntry.authenticate) fun _ => rfl, he]
    exact ⟨e.authenticate, rfl, fun side => e.side_authenticate side, fun _ => rfl⟩
  · rw [Registry.get?_alter_of_ne (f := TrustEntry.authenticate) (fun _ => rfl) _ hq]
    exact ⟨e, he, fun _ => rfl, id⟩

theorem of_get?_trust {e' : TrustEntry} (h : (n.trust p k).registry.get? q = some e') :
    ∃ e, (n.addLink p k).registry.get? q = some e ∧ ∀ side, e'.side side = e.side side := by
  rw [registry_trust] at h
  obtain ⟨e, he, ⟨-, rfl⟩ | ⟨-, rfl⟩⟩ :=
    Registry.get?_alter_eq_some (f := TrustEntry.authenticate) (fun _ => rfl) h
  · exact ⟨e, he, fun side => e.side_authenticate side⟩
  · exact ⟨_, he, fun _ => rfl⟩

end Trust

section Grant

variable {n : Node τ} (h : n.Coherent) {k : SessionKey} (hk : k < n.sessions.length)
  (hlive : n.IsLive k) {p : DomainPair} (hentry : (n.registry.get? p).isSome)

include h hlive hentry

/-- A session of a connection that is there is a link after it was made one: a link of this
connection that is there already is the same one. -/
theorem Coherent.mem_side_addLink : ∃ e, (n.addLink p k).registry.get? p = some e ∧
    n.link k ∈ e.side (n.session k).role := by
  obtain ⟨e, he⟩ := Option.isSome_iff_exists.mp hentry
  refine ⟨e.add (n.session k).role (n.link k), ?_, ?_⟩
  · rw [registry_addLink_eq, Registry.get?_alter_self (TrustEntry.pair_add _ _), he]
    rfl
  · rw [TrustEntry.side_add_self]
    obtain ⟨l, hl, hsame⟩ := Link.mem_insert_self (n.link k) (e.side (n.session k).role)
    rcases Link.eq_or_mem_of_mem_insert hl with rfl | hmem
    · exact hl
    · rwa [h.eq_link he hmem hlive hsame] at hl

include hk

theorem Coherent.addLink : (n.addLink p k).Coherent where
  links := by
    intro q e' he' side l hl
    rw [isLive_addLink, mem_joined_addLink hk, view_session_addLink n p k Session.conn fun _ => rfl]
    rcases of_get?_addLink he' hl with ⟨rfl, rfl⟩ | ⟨e, he, hmem⟩
    · exact ⟨rfl, hlive, Or.inr ⟨rfl, rfl⟩⟩
    · obtain ⟨hconn, hlink, hjoined⟩ := h.links q e he side l hmem
      exact ⟨hconn, hlink, Or.inl hjoined⟩
  joined := by
    intro j hj q hq
    rw [isLive_addLink] at hj
    rw [link, view_session_addLink n p k Session.conn fun _ => rfl,
      view_session_addLink n p k Session.role fun _ => rfl]
    rcases (mem_joined_addLink hk).mp hq with hmem | ⟨rfl, rfl⟩
    · obtain ⟨e, he, hl⟩ := h.joined j hj q hmem
      obtain ⟨e', he', -, hkeep⟩ := exists_get?_addLink (p := p) (k := k) he
      exact ⟨e', he', hkeep _ _ hl⟩
    · exact h.mem_side_addLink hlive hentry
  trusted := by
    intro j hj q hq
    rw [isLive_addLink] at hj
    rw [Session.isTrustedFor, view_session_addLink n p k Session.trusted fun _ => rfl] at hq
    obtain ⟨hmem, hauth⟩ := h.trusted j hj q hq
    obtain ⟨e, he, htrue⟩ := Registry.isAuthenticated_eq_true.mp hauth
    obtain ⟨e', he', hsame, -⟩ := exists_get?_addLink (p := p) (k := k) he
    exact ⟨(mem_joined_addLink hk).mpr (Or.inl hmem),
      Registry.isAuthenticated_eq_true.mpr ⟨e', he', hsame.trans htrue⟩⟩

/-- It may be trusted then. -/
theorem Coherent.trust : (n.trust p k).Coherent := by
  have hadded := h.addLink hk hlive hentry
  let added := n.addLink p k
  have hmark : ∀ {α : Type} (view : Session → α), (∀ s, view (s.markTrusted p) = view s) →
      ∀ j, view ((n.trust p k).session j) = view (added.session j) := fun view hf =>
    view_session_alter view hf added k
  have hconn := hmark Session.conn fun _ => rfl
  have hrole := hmark Session.role fun _ => rfl
  have hjoined := hmark Session.joined fun _ => rfl
  have hisLive : ∀ j, (n.trust p k).IsLive j ↔ added.IsLive j := by
    intro j
    rw [IsLive, IsLive, hconn]
    rfl
  refine ⟨?_, ?_, ?_⟩
  · intro q e' he' side l hl
    obtain ⟨e, he, hside⟩ := of_get?_trust he'
    rw [hside] at hl
    rw [hconn, hisLive, hjoined]
    exact hadded.links q e he side l hl
  · intro j hj q hq
    rw [hisLive] at hj
    rw [hjoined] at hq
    obtain ⟨e, he, hl⟩ := hadded.joined j hj q hq
    obtain ⟨e', he', hside, -⟩ := exists_get?_trust he
    refine ⟨e', he', ?_⟩
    rw [hside, link, hconn, hrole]
    exact hl
  · intro j hj q hq
    rw [hisLive] at hj
    rw [hjoined]
    rcases (isTrustedFor_trust_iff hk j q).mp hq with hold | ⟨rfl, rfl⟩
    · rw [← view_session_addLink n p k (·.isTrustedFor q) fun _ => rfl] at hold
      obtain ⟨hmem, hauth⟩ := hadded.trusted j hj q hold
      obtain ⟨e, he, htrue⟩ := Registry.isAuthenticated_eq_true.mp hauth
      obtain ⟨e', he', -, hkeep⟩ := exists_get?_trust he
      exact ⟨hmem, Registry.isAuthenticated_eq_true.mpr ⟨e', he', hkeep htrue⟩⟩
    · exact ⟨(mem_joined_addLink hk).mpr (Or.inr ⟨rfl, rfl⟩), isAuthenticated_trust hentry j⟩

end Grant

section NewSession

variable {n : Node τ} (hn : n.WellFormed) {conn : ConnId} {s : Session} (hconn : s.conn = conn)

include hconn

/-- Of the sessions that were there, those of other connections stay the ones of theirs. -/
theorem isLive_newSession (hfresh : n.find? conn = none) (j : SessionKey) :
    ((n.addSession s).register conn n.sessions.length).IsLive j ↔
      j = n.sessions.length ∨ n.IsLive j := by
  have hsession : ∀ j, ((n.addSession s).register conn n.sessions.length).session j =
      (n.addSession s).session j := fun _ => rfl
  rw [IsLive, hsession, session_addSession]
  by_cases hj : j = n.sessions.length
  · rw [if_pos hj, hconn, find?_register_self, hj]
    simp
  · rw [if_neg hj]
    by_cases hsame : (n.session j).conn = conn
    · rw [hsame, find?_register_self]
      have hdead : ¬ n.IsLive j := by
        rw [IsLive, hsame, hfresh]
        simp
      simp [hj, hdead, Ne.symm hj]
    · rw [find?_register_of_ne _ hsame]
      simp [hj, IsLive, find?, addSession]

include hn

/-- A session of a new connection is a link of no pair yet. -/
theorem Coherent.newSession (h : n.Coherent) (hfresh : n.find? conn = none)
    (hjoined : s.joined = []) (htrusted : s.trusted = []) :
    ((n.addSession s).register conn n.sessions.length).Coherent := by
  have hisLive := isLive_newSession hconn hfresh
  have hsession : ∀ j, n.IsLive j →
      ((n.addSession s).register conn n.sessions.length).session j = n.session j := fun j hj =>
    session_addSession_of_lt (hn.live _ j hj).1 s
  have hself : ((n.addSession s).register conn n.sessions.length).session n.sessions.length = s :=
    session_addSession_self n s
  refine ⟨?_, ?_, ?_⟩
  · intro p e he side l hl
    obtain ⟨hown, hlink, hmem⟩ := h.links p e he side l hl
    rw [hsession _ hlink, hisLive]
    exact ⟨hown, Or.inr hlink, hmem⟩
  · intro j hj p hp
    rcases (hisLive j).mp hj with rfl | hold
    · rw [hself, hjoined] at hp
      cases hp
    · rw [hsession j hold] at hp
      rw [link, hsession j hold]
      exact h.joined j hold p hp
  · intro j hj p hp
    rcases (hisLive j).mp hj with rfl | hold
    · rw [hself, Session.isTrustedFor, htrusted] at hp
      cases hp
    · rw [hsession j hold] at hp ⊢
      exact h.trusted j hold p hp

end NewSession

/-- A new connection of ours is one whose session has then joined the pair. -/
theorem establish_eq_addLink (n : Node τ) (p : DomainPair) (relayFor : Option String)
    (conn : ConnId) : n.establish p relayFor conn =
      ((n.addSession (.opened conn p relayFor n.nextIdentifier)).register conn
        n.sessions.length).addLink p n.sessions.length := by
  have hrole : (((n.addSession (.opened conn p relayFor n.nextIdentifier)).register conn
      n.sessions.length).session n.sessions.length).role = .outbound :=
    congrArg Session.role (session_addSession_self n _)
  simp only [addLink, hrole]
  rfl

theorem Coherent.establish {n : Node τ} (h : n.Coherent) (hn : n.WellFormed) {conn : ConnId}
    (hfresh : n.find? conn = none) {p : DomainPair} (hentry : (n.registry.get? p).isSome)
    (relayFor : Option String) : (n.establish p relayFor conn).Coherent := by
  rw [establish_eq_addLink]
  refine (h.newSession hn rfl hfresh rfl rfl).addLink (k := n.sessions.length) ?_ ?_ hentry
  · simp [addSession, register]
  · exact (isLive_newSession rfl hfresh _).mpr (Or.inl rfl)

section Closing

variable {n : Node τ} {conn : ConnId} {k : SessionKey} (hfind : n.find? conn = some k)

include hfind

theorem view_session_connectionClosed {α : Type} (view : Session → α)
    (hview : ∀ s, view s.beginClose.clearQueue = view s) (j : SessionKey) :
    view ((n.connectionClosed conn).session j) = view (n.session j) := by
  rw [session_connectionClosed hfind]
  split
  · exact hview _
  · rfl

theorem find?_connectionClosed_of_ne {other : ConnId} (hne : other ≠ conn) :
    (n.connectionClosed conn).find? other = n.find? other := by
  rw [find?, live_connectionClosed hfind]
  exact find?_unregister_of_ne n hne

theorem of_isLive_connectionClosed {j : SessionKey} (h : (n.connectionClosed conn).IsLive j) :
    n.IsLive j ∧ (n.session j).conn ≠ conn := by
  rw [IsLive, view_session_connectionClosed hfind Session.conn fun _ => rfl] at h
  have hne : (n.session j).conn ≠ conn := by
    intro heq
    have hgone : (n.connectionClosed conn).find? conn = none := by
      rw [find?, live_connectionClosed hfind]
      exact find?_unregister_self n conn
    rw [heq, hgone] at h
    cases h
  rw [find?_connectionClosed_of_ne hfind hne] at h
  exact ⟨h, hne⟩

/-- A link that is left is one of another connection: had it this one, its session would be the one
that left all its pairs. -/
theorem Coherent.of_get?_connectionClosed (h : n.Coherent) (hown : (n.session k).conn = conn)
    {p : DomainPair} {e' : TrustEntry} (he' : (n.connectionClosed conn).registry.get? p = some e')
    {side : Role} {l : Link} (hl : l ∈ e'.side side) :
    (∃ e, n.registry.get? p = some e ∧ l ∈ e.side side) ∧ (n.session l.session).conn ≠ conn := by
  rw [registry_connectionClosed hfind, hown] at he'
  obtain ⟨e, he, -, hincoming, houtgoing⟩ := Registry.get?_foldl_unlink_eq_some he'
  have hmem : l ∈ e.side side ∧ (p ∈ (n.session k).joined → l.conn ≠ conn) := by
    cases side with
    | inbound => exact hincoming l hl
    | outbound => exact houtgoing l hl
  refine ⟨⟨e, he, hmem.1⟩, fun heq => ?_⟩
  obtain ⟨hconn, hlink, hjoined⟩ := h.links p e he side l hmem.1
  have hsession : l.session = k := by
    rw [IsLive, heq, hfind] at hlink
    exact (Option.some.inj hlink).symm
  rw [hsession] at hjoined
  exact hmem.2 hjoined (hconn.trans heq)

/-- A connection that ends takes its links with it, and no others. -/
theorem Coherent.connectionClosed (h : n.Coherent) (hown : (n.session k).conn = conn) :
    (n.connectionClosed conn).Coherent where
  links := by
    intro p e' he' side l hl
    obtain ⟨⟨e, he, hmem⟩, hne⟩ := h.of_get?_connectionClosed hfind hown he' hl
    obtain ⟨hconn, hlink, hjoined⟩ := h.links p e he side l hmem
    rw [IsLive, view_session_connectionClosed hfind Session.conn fun _ => rfl,
      view_session_connectionClosed hfind Session.joined fun _ => rfl,
      find?_connectionClosed_of_ne hfind hne]
    exact ⟨hconn, hlink, hjoined⟩
  joined := by
    intro j hj p hp
    obtain ⟨hold, hne⟩ := of_isLive_connectionClosed hfind hj
    rw [view_session_connectionClosed hfind Session.joined fun _ => rfl] at hp
    obtain ⟨e, he, hl⟩ := h.joined j hold p hp
    obtain ⟨e', he', -, hkept⟩ := Registry.exists_get?_foldl_unlink he hl hne
    rw [registry_connectionClosed hfind, hown, link,
      view_session_connectionClosed hfind Session.conn fun _ => rfl,
      view_session_connectionClosed hfind Session.role fun _ => rfl]
    exact ⟨e', he', hkept⟩
  trusted := by
    intro j hj p hp
    obtain ⟨hold, hne⟩ := of_isLive_connectionClosed hfind hj
    rw [Session.isTrustedFor,
      view_session_connectionClosed hfind Session.trusted fun _ => rfl] at hp
    rw [view_session_connectionClosed hfind Session.joined fun _ => rfl,
      registry_connectionClosed hfind, hown]
    obtain ⟨hmem, hauth⟩ := h.trusted j hold p hp
    obtain ⟨e, he, hl⟩ := h.joined j hold p hmem
    obtain ⟨e', he', hsame, -⟩ := Registry.exists_get?_foldl_unlink he hl hne
    obtain ⟨e₀, he₀, htrue⟩ := Registry.isAuthenticated_eq_true.mp hauth
    have hentries : e₀ = e := by simpa [he] using he₀.symm
    rw [hentries, ← hsame] at htrue
    exact ⟨hmem, Registry.isAuthenticated_eq_true.mpr ⟨e', he', htrue⟩⟩

end Closing

variable [Transport τ]

/-- A connection that gets a new session had none, if no two sessions share a connection. -/
theorem Move.find?_eq_none {n m : Node τ} {c : Cause} (h : Move c n m) (hn : n.WellFormed)
    (hconns : (m.sessions.map (·.conn)).Nodup) (hlength : n.sessions.length < m.sessions.length) :
    n.find? (m.session n.sessions.length).conn = none := by
  cases hfind : n.find? (m.session n.sessions.length).conn with
  | none => rfl
  | some k =>
    obtain ⟨hk, hconn⟩ := hn.live _ k hfind
    have hsame := Session.conn_eq (h.identity_eq hk)
    have heq := eq_of_nodup hconns (Nat.lt_trans hk hlength) hlength (hsame.trans hconn)
    exact absurd heq (Nat.ne_of_lt hk)

theorem Move.coherent {n m : Node τ} {c : Cause} (h : Move c n m) (hn : n.WellFormed)
    (hbound : n.Bound) (hconns : (m.sessions.map (·.conn)).Nodup) (hcoherent : n.Coherent) :
    m.Coherent := by
  have hmove := h
  cases h with
  | remark k f hremark =>
    refine hcoherent.alter (fun s => ?_) k
    cases hremark with
    | phase phase => exact Session.view_setPhase Session.bonds (fun _ _ => rfl) phase s
    | _ => rfl
  | ensure p => exact hcoherent.withEntry p
  | join k stanza p hrole hkind hnamed hentry hlive =>
    have hsame : n.addIncoming p k = n.addLink p k := by simp only [addLink, hrole]
    rw [hsame]
    exact hcoherent.addLink (lt_length_of_inbound hrole) hlive hentry
  | offerKey k p id secret =>
    refine hcoherent.of_eq (registry_offerKey n k p _) (live_flush _ k) fun j => ?_
    rw [session_offerKey]
    split <;> rfl
  | queueRequest k p id key =>
    exact (hcoherent.alter (f := (·.addVerifyRequest p.peer id)) (fun _ => rfl) k).alter
      (f := (·.enqueue (Stanza.verifyRequest p.own p.peer id key))) (fun _ => rfl) k
  | flush k =>
    exact hcoherent.of_eq (registry_flush n k) (live_flush n k)
      (view_session_flush n Session.bonds (fun _ => rfl) k)
  | stop k force =>
    refine hcoherent.of_eq (registry_stop n k force) ?_ fun j =>
      view_session_stop n Session.bonds (fun _ => rfl) k j force
    unfold Node.stop
    split <;> rfl
  | grantVerdict k stanza p hkind htype hnamed hentry hrequest hlive =>
    obtain ⟨hk, -⟩ := hn.live _ k hlive
    have hconn :=
      view_session_alter Session.conn (f := (·.dropKeyRequest p.peer)) (fun _ => rfl) n k k
    refine (hcoherent.alter (f := (·.dropKeyRequest p.peer)) (fun _ => rfl) k).trust
      (by simpa using hk) ?_ hentry
    exact (congrArg n.find? hconn).trans hlive
  | grantCertificate k stanza pair p hkind hrole hpair hcheck htrusted hentry hlive =>
    exact hcoherent.trust (lt_length_of_pair hpair) hlive hentry
  | grantRelayed r t stanza p id hkind htype hid hnamed hentry hrequest htarget =>
    have hmember : t ∈ n.incomingKeys p := List.mem_of_find?_eq_some htarget
    obtain ⟨e, he, l, hl, rfl⟩ := mem_incomingKeys_iff.mp hmember
    obtain ⟨-, hlive, -⟩ := hcoherent.links p e he .inbound l hl
    have hconn := view_session_alter Session.conn (f := (·.dropVerifyRequest p.peer id))
      (fun _ => rfl) n r l.session
    have hk := lt_length_of_inbound (hbound.incoming p l.session hmember)
    refine (hcoherent.alter (f := (·.dropVerifyRequest p.peer id)) (fun _ => rfl) r).trust
      (by simpa using hk) ?_ hentry
    exact (congrArg n.find? hconn).trans hlive
  | settle r stanza p id =>
    exact hcoherent.alter (f := (·.dropVerifyRequest p.peer id)) (fun _ => rfl) r
  | accept conn address =>
    have hlength : n.sessions.length < (n.accept conn address).2.sessions.length := by
      simp [Node.accept, addSession, register]
    have hfresh := hmove.find?_eq_none hn hconns hlength
    have hconn : ((n.accept conn address).2.session n.sessions.length).conn = conn :=
      congrArg Session.conn (session_addSession_self n _)
    rw [hconn] at hfresh
    exact hcoherent.newSession hn rfl hfresh rfl rfl
  | establish p relayFor conn hopens hentry =>
    have hlength : n.sessions.length <
        ((n.connect p).2.establish p relayFor conn).sessions.length :=
      Nat.lt_of_lt_of_eq (Nat.lt_succ_self _) (length_sessions_establish _ _ _ _).symm
    have hfresh := hmove.find?_eq_none hn hconns hlength
    have hsession := session_establish (n.connect p).2 p relayFor conn n.sessions.length
    rw [sessions_connect, if_pos rfl] at hsession
    rw [hsession] at hfresh
    have hconnected : (n.connect p).2.Coherent := hcoherent.of_eq rfl rfl fun _ => rfl
    exact hconnected.establish ⟨hn.entries, hn.live⟩ hfresh hentry relayFor
  | close conn k hfind => exact hcoherent.connectionClosed hfind (hn.live conn k hfind).2
  | _ => exact hcoherent.of_eq rfl rfl fun _ => rfl

/-- The connections of sessions stay, and more may come. -/
theorem Move.conns_prefix {n m : Node τ} {c : Cause} (h : Move c n m) :
    n.sessions.map (·.conn) <+: m.sessions.map (·.conn) := by
  refine List.prefix_iff_getElem.mpr ⟨by simpa using h.length_le, fun k hk => ?_⟩
  have hlt : k < n.sessions.length := by simpa using hk
  have hsame := Session.conn_eq (h.identity_eq hlt)
  simpa [session, hlt, Nat.lt_of_lt_of_le hlt h.length_le] using hsame.symm

theorem Moves.conns_prefix {n m : Node τ} {c : Cause} (h : Moves c n m) :
    n.sessions.map (·.conn) <+: m.sessions.map (·.conn) := by
  induction h with
  | refl => exact List.prefix_refl _
  | tail _ hmove ih => exact ih.trans hmove.conns_prefix

end Node

theorem Setup.coherent_after {τ : Type} [Transport τ] (setup : Setup τ) {past : List (Occurrence τ)}
    (hconns : ((setup.after past).sessions.map (·.conn)).Nodup) : (setup.after past).Coherent := by
  have hinvariant := setup.invariant
    (P := fun n => n.WellFormed ∧ n.Bound ∧ ((n.sessions.map (·.conn)).Nodup → n.Coherent))
    ⟨setup.wellFormed_after [], setup.bound_after [], fun _ => Node.coherent_create _ _ _ _ _⟩
    (fun hmove ⟨hn, hbound, hcoherent⟩ => ⟨hmove.wellFormed hn, hmove.bound hbound,
      fun hnodup => hmove.coherent hn hbound hnodup
        (hcoherent (hmove.conns_prefix.sublist.nodup hnodup))⟩)
    (fun n transport pinned ⟨hn, hbound, hcoherent⟩ => ⟨⟨hn.entries, hn.live⟩,
      ⟨hbound.opened, hbound.keys, hbound.verifies, hbound.incoming, hbound.outgoing⟩,
      fun hnodup => (hcoherent hnodup).of_eq rfl rfl fun _ => rfl⟩) past
  exact hinvariant.2.2 hconns

end Federation
