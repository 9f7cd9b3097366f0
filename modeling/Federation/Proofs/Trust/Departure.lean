import Federation.Proofs.Node.Coherence
import Federation.Proofs.Trust.Provenance

/-!
The end of a connection. It takes away the links of one session and nothing else: of the pairs that
this session has joined those stay that have another link, trusted as before, and the others go.
-/

namespace Federation

namespace TrustEntry

theorem mem_links_unlink {e : TrustEntry} {conn : ConnId} {l : Link} :
    l ∈ (e.unlink conn).links ↔ l ∈ e.links ∧ l.conn ≠ conn := by
  simp only [mem_links_iff, mem_side_unlink, exists_and_right]

/-- Nothing is taken from an entry that has no link of the connection. -/
theorem unlink_of_forall_ne {e : TrustEntry} {conn : ConnId} (h : ∀ l ∈ e.links, l.conn ≠ conn) :
    e.unlink conn = e := by
  have hkept : ∀ side, Link.remove conn (e.side side) = e.side side := by
    intro side
    refine List.filter_eq_self.mpr fun l hl => ?_
    simpa using h l (mem_links_of_mem_side hl)
  have hincoming : Link.remove conn e.incoming = e.incoming := hkept .inbound
  have houtgoing : Link.remove conn e.outgoing = e.outgoing := hkept .outbound
  rw [unlink, hincoming, houtgoing]

end TrustEntry

namespace Node

variable {τ : Type}

/-- What the end of a connection makes of a node: its session is not the one of any connection and a
link of no pair any more, nothing waits on it, the pairs without another link are gone, and all else
is as it was. -/
structure Departs (n m : Node τ) (conn : ConnId) (k : SessionKey) : Prop where
  gone : m.find? conn = none
  found : ∀ other ≠ conn, m.find? other = n.find? other
  waiting : (m.session k).waiting = []
  sessions : ∀ j ≠ k, m.session j = n.session j
  links : ∀ p e, m.registry.get? p = some e → ∀ l ∈ e.links, l.conn ≠ conn ∧ l.session ≠ k
  dropped : ∀ p e, n.registry.get? p = some e →
    (m.registry.get? p = none ↔ e.links ≠ [] ∧ ∀ l ∈ e.links, l.conn = conn)
  entries : ∀ p e, m.registry.get? p = some e →
    ∃ e₀, n.registry.get? p = some e₀ ∧ e = e₀.unlink conn
  untouched : ∀ p e, n.registry.get? p = some e → (∀ l ∈ e.links, l.conn ≠ conn) →
    m.registry.get? p = some e

section

variable {n : Node τ} (h : n.Coherent)

include h

theorem Coherent.mem_linkKeys_iff {k : SessionKey} (hlive : n.IsLive k) {p : DomainPair} :
    k ∈ n.linkKeys p ↔ p ∈ (n.session k).joined := by
  rw [Node.mem_linkKeys_iff]
  constructor
  · rintro ⟨e, he, side, l, hl, rfl⟩
    exact (h.links p e he side l hl).2.2
  · intro hjoined
    obtain ⟨e, he, hl⟩ := h.joined k hlive p hjoined
    exact ⟨e, he, _, n.link k, hl, rfl⟩

variable {conn : ConnId} {k : SessionKey} (hfind : n.find? conn = some k)
  (hown : (n.session k).conn = conn) {p : DomainPair} {e : TrustEntry}
  (he : n.registry.get? p = some e)

include hfind he

/-- The links of a connection are those of the pairs that its session has joined. -/
theorem Coherent.mem_joined_of_mem_links {l : Link} (hl : l ∈ e.links) (hconn : l.conn = conn) :
    l.session = k ∧ p ∈ (n.session k).joined := by
  obtain ⟨side, hside⟩ := TrustEntry.mem_links_iff.mp hl
  obtain ⟨hlink, hlive, hjoined⟩ := h.links p e he side l hside
  have hsession : l.session = k := by
    rw [IsLive, ← hlink, hconn, hfind] at hlive
    exact (Option.some.inj hlive).symm
  exact ⟨hsession, hsession ▸ hjoined⟩

include hown

/-- A pair is gone with a connection if it has links and all of them are links
of this connection. -/
theorem Coherent.get?_connectionClosed : (n.connectionClosed conn).registry.get? p =
    if e.links ≠ [] ∧ ∀ l ∈ e.links, l.conn = conn then none else some (e.unlink conn) := by
  rw [registry_connectionClosed hfind, hown, Registry.get?_foldl_unlink, he]
  by_cases hjoined : p ∈ (n.session k).joined
  · obtain ⟨e', he', hl⟩ := h.joined k ((congrArg n.find? hown).trans hfind) p hjoined
    have hsame : e' = e := Option.some.inj (he'.symm.trans he)
    rw [hsame] at hl
    have hlinks : e.links ≠ [] := List.ne_nil_of_mem (TrustEntry.mem_links_of_mem_side hl)
    have hempty : (e.unlink conn).links = [] ↔ ∀ l ∈ e.links, l.conn = conn := by
      simp only [List.eq_nil_iff_forall_not_mem, TrustEntry.mem_links_unlink, not_and, not_not]
    by_cases hall : ∀ l ∈ e.links, l.conn = conn
    · rw [if_pos hjoined, if_pos ⟨hlinks, hall⟩]
      simp [Option.filter, hempty.mpr hall]
    · have hleft : (e.unlink conn).links ≠ [] := fun hnil => hall (hempty.mp hnil)
      rw [if_pos hjoined, if_neg fun hboth => hall hboth.2]
      simp [Option.filter, hleft]
  · have hforeign : ∀ l ∈ e.links, l.conn ≠ conn := fun l hl hconn =>
      hjoined (h.mem_joined_of_mem_links hfind he hl hconn).2
    rw [if_neg hjoined, TrustEntry.unlink_of_forall_ne hforeign, if_neg]
    rintro ⟨hlinks, hall⟩
    obtain ⟨l, hl⟩ := List.exists_mem_of_ne_nil _ hlinks
    exact hforeign l hl (hall l hl)

end

theorem get?_connectionClosed_of_eq_none {n : Node τ} {p : DomainPair}
    (hnone : n.registry.get? p = none) (conn : ConnId) :
    (n.connectionClosed conn).registry.get? p = none := by
  cases hfind : n.find? conn with
  | none =>
    simp only [connectionClosed, hfind]
    exact hnone
  | some k =>
    rw [registry_connectionClosed hfind, Registry.get?_foldl_unlink, hnone]
    simp

theorem Coherent.departs {n : Node τ} (h : n.Coherent) (hn : n.WellFormed) {conn : ConnId}
    {k : SessionKey} (hfind : n.find? conn = some k) :
    n.Departs (n.connectionClosed conn) conn k := by
  obtain ⟨hk, hown⟩ := hn.live conn k hfind
  have hentries : ∀ p e, (n.connectionClosed conn).registry.get? p = some e →
      ∃ e₀, n.registry.get? p = some e₀ ∧ e = e₀.unlink conn := by
    intro p e he
    cases hget : n.registry.get? p with
    | none =>
      rw [get?_connectionClosed_of_eq_none hget] at he
      cases he
    | some e₀ =>
      rw [h.get?_connectionClosed hfind hown hget] at he
      split at he
      · cases he
      · exact ⟨e₀, rfl, (Option.some.inj he).symm⟩
  have hsession := session_connectionClosed hfind
  refine ⟨?_, fun other => find?_connectionClosed_of_ne hfind, ?_, ?_, ?_, ?_, hentries, ?_⟩
  · rw [find?, live_connectionClosed hfind]
    exact find?_unregister_self n conn
  · rw [hsession, if_pos ⟨rfl, hk⟩]
    rfl
  · intro j hj
    rw [hsession, if_neg fun hboth => hj hboth.1]
  · intro p e he l hl
    obtain ⟨e₀, he₀, rfl⟩ := hentries p e he
    obtain ⟨hmem, hne⟩ := TrustEntry.mem_links_unlink.mp hl
    obtain ⟨side, hside⟩ := TrustEntry.mem_links_iff.mp hmem
    refine ⟨hne, fun hsession => hne ?_⟩
    rw [(h.links p e₀ he₀ side l hside).1, hsession, hown]
  · intro p e he
    rw [h.get?_connectionClosed hfind hown he]
    split
    · rename_i hgone
      exact ⟨fun _ => hgone, fun _ => rfl⟩
    · rename_i hkept
      exact ⟨fun hnone => absurd hnone (Option.some_ne_none _), fun hgone => absurd hgone hkept⟩
  · intro p e he hforeign
    rw [h.get?_connectionClosed hfind hown he, TrustEntry.unlink_of_forall_ne hforeign, if_neg]
    rintro ⟨hlinks, hall⟩
    obtain ⟨l, hl⟩ := List.exists_mem_of_ne_nil _ hlinks
    exact hforeign l hl (hall l hl)

/-- The sessions of the links of one side have its role. -/
theorem Bound.role_of_mem_side {n : Node τ} (h : n.Bound) {p : DomainPair} {e : TrustEntry}
    (he : n.registry.get? p = some e) {side : Role} {l : Link} (hl : l ∈ e.side side) :
    (n.session l.session).role = side := by
  cases side with
  | inbound => exact h.incoming p _ (mem_incomingKeys_iff.mpr ⟨e, he, l, hl, rfl⟩)
  | outbound => exact (h.outgoing p _ (mem_outgoingKeys_iff.mpr ⟨e, he, l, hl, rfl⟩)).1

end Node

namespace Setup

variable {τ : Type} [Transport τ] (setup : Setup τ)

/-- The links of a pair belong to the sessions that are there under their connections, have the role
of their side and have joined the pair, and such a session is a link of just the pairs that it has
joined. So a connection that ends takes with it what it has, and one that is not known nothing. -/
theorem links_agree_with_sessions {past : List (Occurrence τ)}
    (hconns : ((setup.after past).sessions.map (·.conn)).Nodup) :
    let n := setup.after past
    (∀ p e, n.registry.get? p = some e → ∀ side, ∀ l ∈ e.side side,
      (n.session l.session).role = side ∧ n.find? l.conn = some l.session ∧
        p ∈ (n.session l.session).joined) ∧
    (∀ conn k, n.find? conn = some k → ∀ p, k ∈ n.linkKeys p ↔ p ∈ (n.session k).joined) ∧
    ∀ conn, (n.find? conn = none → n.connectionClosed conn = n) ∧
      ∀ k, n.find? conn = some k → n.Departs (n.connectionClosed conn) conn k := by
  intro n
  have hn : n.WellFormed := setup.wellFormed_after past
  have hcoherent : n.Coherent := setup.coherent_after hconns
  refine ⟨?_, ?_, ?_⟩
  · intro p e he side l hl
    obtain ⟨hconn, hlive, hjoined⟩ := hcoherent.links p e he side l hl
    refine ⟨(setup.bound_after past).role_of_mem_side he hl, ?_, hjoined⟩
    rw [hconn]
    exact hlive
  · intro conn k hfind p
    have hown := (hn.live conn k hfind).2
    exact hcoherent.mem_linkKeys_iff ((congrArg n.find? hown).trans hfind)
  · intro conn
    refine ⟨fun hnone => ?_, fun k hfind => hcoherent.departs hn hfind⟩
    simp only [Node.connectionClosed, hnone]

/-- A key was verified over a relay. The relay goes, and the pair stays trusted for the sake of the
connection on which the key was presented. -/
theorem links_agree_with_sessions_of_keyVerified :
    let p : DomainPair := ⟨"b.example", "a.example"⟩
    let n := served.after keyVerified
    let m := n.connectionClosed ⟨1000⟩
    n.find? ⟨1000⟩ = some 1 ∧ 1 ∈ n.linkKeys p ∧ m.find? ⟨1000⟩ = none ∧ 1 ∉ m.linkKeys p ∧
      m.registry.isAuthenticated p := by
  intro p n m
  have hrun : (n.sessions.map (·.conn)).Nodup ∧ n.find? ⟨1000⟩ = some 1 ∧
      p ∈ (n.session 1).joined ∧ (n.registry.get? p).map (fun e => (e.isAuthenticated, e.links)) =
        some (true, [⟨⟨1000⟩, 1⟩, ⟨⟨1⟩, 0⟩]) := by
    simp only [n]
    rw [after_eq_foldl]
    decide +kernel
  obtain ⟨hconns, hfind, hjoined, hentry⟩ := hrun
  obtain ⟨e, he, hviews⟩ := Option.map_eq_some_iff.mp hentry
  simp only [Prod.mk.injEq] at hviews
  obtain ⟨hauth, hlinked⟩ := hviews
  obtain ⟨-, hlinks, hends⟩ := served.links_agree_with_sessions hconns
  have hdeparts := (hends ⟨1000⟩).2 1 hfind
  refine ⟨hfind, (hlinks _ 1 hfind p).mpr hjoined, hdeparts.gone, ?_, ?_⟩
  · intro hmem
    obtain ⟨e', he', side, l, hl, hsession⟩ := Node.mem_linkKeys_iff.mp hmem
    exact (hdeparts.links p e' he' l (TrustEntry.mem_links_of_mem_side hl)).2 hsession
  · cases hget : m.registry.get? p with
    | none =>
      have hother := ((hdeparts.dropped p e he).mp hget).2 ⟨⟨1⟩, 0⟩ (by simp [hlinked])
      cases hother
    | some e' =>
      obtain ⟨e₀, he₀, rfl⟩ := hdeparts.entries p e' hget
      rw [he] at he₀
      rw [Registry.isAuthenticated_eq_true]
      exact ⟨_, hget, (Option.some.inj he₀) ▸ hauth⟩

end Setup

end Federation
