import Federation.Proofs.Node.Speech

/-!
Whom a connection is bound to. A connection that we opened has one peer: whatever is outstanding on
it is for that peer, and every pair that it serves has that peer. On a connection that a peer opened
nothing is ever outstanding.
-/

namespace Federation.Node

variable {τ : Type}

structure Bound (n : Node τ) : Prop where
  opened : ∀ k < n.sessions.length, (n.session k).role = .outbound →
    ∃ pair, (n.session k).pair = some pair ∧ pair.IsCanonical n.directory.isServed ∧
      Effect.connect pair (some (n.session k).conn) ∈ n.log
  keys : ∀ k, ∀ d ∈ (n.session k).keyRequests, (n.session k).role = .outbound ∧
    ∃ pair, (n.session k).pair = some pair ∧ d = pair.peer
  verifies : ∀ k, ∀ q ∈ (n.session k).verifyRequests, (n.session k).role = .outbound ∧
    ∃ pair, (n.session k).pair = some pair ∧ q.1 = pair.peer
  incoming : ∀ p, ∀ k ∈ n.incomingKeys p, (n.session k).role = .inbound
  outgoing : ∀ p, ∀ k ∈ n.outgoingKeys p, (n.session k).role = .outbound ∧
    ∃ pair, (n.session k).pair = some pair ∧ pair.peer = p.peer

theorem bound_create (settings : Settings) (directory : Directory) (transport : τ) (issued : Nat)
    (identify : Nat → String) : (create settings directory transport issued identify).Bound where
  opened := fun _ hk => absurd hk (Nat.not_lt_zero _)
  keys := fun _ _ hd => by cases hd
  verifies := fun _ _ hq => by cases hq
  incoming := fun _ _ hk => by cases hk
  outgoing := fun _ _ hk => by cases hk

/-- The peer of a key that is outstanding is the peer of the connection. -/
theorem Bound.peer_of_hasKeyRequest {n : Node τ} (hn : n.Bound) {k : SessionKey} {p : DomainPair}
    (hp : p.IsCanonical n.directory.isServed) (h : (n.session k).hasKeyRequest p.peer) :
    (n.session k).role = .outbound ∧ ∃ pair, (n.session k).pair = some pair ∧
      pair.peer = p.peer := by
  have hmem : Text.lower p.peer ∈ (n.session k).keyRequests := by
    simpa [Session.hasKeyRequest] using h
  rw [hp.lower_peer] at hmem
  obtain ⟨hrole, pair, hpair, hpeer⟩ := hn.keys k _ hmem
  exact ⟨hrole, pair, hpair, hpeer.symm⟩

theorem Bound.peer_of_hasVerifyRequest {n : Node τ} (hn : n.Bound) {k : SessionKey}
    {p : DomainPair} {id : String} (hp : p.IsCanonical n.directory.isServed)
    (h : (n.session k).hasVerifyRequest p.peer id) :
    (n.session k).role = .outbound ∧ ∃ pair, (n.session k).pair = some pair ∧
      pair.peer = p.peer := by
  have hmem : (Text.lower p.peer, id) ∈ (n.session k).verifyRequests := by
    simpa [Session.hasVerifyRequest] using h
  rw [hp.lower_peer] at hmem
  obtain ⟨hrole, pair, hpair, hpeer⟩ := hn.verifies k _ hmem
  exact ⟨hrole, pair, hpair, hpeer.symm⟩

variable [Transport τ]

theorem Carries.peer {n : Node τ} (hn : n.Bound) {p : DomainPair} {k : SessionKey}
    (h : Carries n p k) : (n.session k).role = .outbound ∧
      ∃ pair, (n.session k).pair = some pair ∧ pair.peer = p.peer := by
  cases h with
  | usable husable => exact hn.outgoing p k (of_usableOutgoing? husable).1
  | fresh conn id hk hsession =>
    rcases hsession with hsession | hsession <;> rw [hsession] <;> exact ⟨rfl, p, rfl, rfl⟩

/-- The log only grows. -/
theorem Move.log_prefix {n m : Node τ} {c : Cause} (h : Move c n m) : n.log <+: m.log := by
  obtain ⟨added, hlog, -⟩ := h.exists_added
  exact ⟨added, hlog.symm⟩

/-- A connection that we opened keeps its role and its pair. -/
theorem Move.pair_eq {n m : Node τ} {c : Cause} (h : Move c n m) {k : SessionKey}
    {pair : DomainPair} (hrole : (n.session k).role = .outbound)
    (hpair : (n.session k).pair = some pair) :
    (m.session k).role = .outbound ∧ (m.session k).pair = some pair := by
  have hsame := Session.role_eq (h.identity_eq (lt_length_of_pair hpair))
  exact ⟨hsame.trans hrole, (h.change k).pair_eq hrole hpair⟩

omit [Transport τ] in
theorem Grants.isCanonical {n : Node τ} {c : Cause} {p : DomainPair} {k : SessionKey}
    (h : Grants n p k c) : p.IsCanonical n.directory.isServed := by
  cases h with
  | verdict _ stanza hkind htype hnamed => exact Directory.isCanonical_of_pairNamed? hnamed
  | certificate _ stanza pair hkind hrole hpair hcheck =>
    exact DomainPair.isCanonical_of_checked hcheck
  | relayed r _ stanza id hkind htype hid hnamed => exact Directory.isCanonical_of_pairNamed? hnamed

omit [Transport τ] in
/-- A pair is granted to a connection that we opened only for the peer it was opened for. -/
theorem Grants.peer {n : Node τ} (hn : n.Bound) {c : Cause} {p : DomainPair} {k : SessionKey}
    (h : Grants n p k c) (hrole : (n.session k).role = .outbound) :
    ∃ pair, (n.session k).pair = some pair ∧ pair.peer = p.peer := by
  have hp := h.isCanonical
  cases h with
  | verdict _ stanza hkind htype hnamed hrequest => exact (hn.peer_of_hasKeyRequest hp hrequest).2
  | certificate _ stanza pair hkind _ hpair hcheck =>
    have hlt := lt_length_of_pair hpair
    obtain ⟨opened, hopened, hcanonical, -⟩ := hn.opened k hlt hrole
    have hsame : opened = pair := by simpa [hopened] using hpair
    subst hsame
    have heq : p = opened := by
      have hok := hcanonical
      rw [DomainPair.IsCanonical, hcheck] at hok
      exact Except.ok.inj hok
    exact ⟨opened, hpair, by rw [heq]⟩
  | relayed r _ stanza id hkind htype hid hnamed hrequest hlink =>
    rw [hn.incoming p k hlink] at hrole
    cases hrole

theorem Move.bound {n m : Node τ} {c : Cause} (h : Move c n m) (hn : n.Bound) : m.Bound where
  opened := by
    intro k hk hrole
    by_cases hold : k < n.sessions.length
    · have hidentity := h.identity_eq hold
      have hrole' := (Session.role_eq hidentity).symm.trans hrole
      have hconn : (m.session k).conn = (n.session k).conn := Session.conn_eq hidentity
      obtain ⟨pair, hpair, hcanonical, hlog⟩ := hn.opened k hold hrole'
      refine ⟨pair, (h.pair_eq hrole' hpair).2, ?_, ?_⟩
      · rwa [h.directory_eq]
      · rw [hconn]
        exact h.log_prefix.subset hlog
    · rcases h.length_cases with heq | ⟨heq, hcreated⟩
      · omega
      · have hlast : k = n.sessions.length := by omega
        subst hlast
        rcases hcreated with
          ⟨conn, address, -, hsession⟩ | ⟨conn, p, relayFor, hopens, hsession, hlog⟩
        · rw [hsession] at hrole
          cases hrole
        · rw [hsession, h.directory_eq]
          exact ⟨p, rfl, hopens.concerns.isCanonical, hlog⟩
  keys := by
    intro k d hd
    rcases (h.change k).mem_keyRequests hd with hold | ⟨p, _, _, hmay, hrole, hpair, heq, -⟩
    · obtain ⟨hrole, pair, hpair, hpeer⟩ := hn.keys k d hold
      have hkeep := h.pair_eq hrole hpair
      exact ⟨hkeep.1, pair, hkeep.2, hpeer⟩
    · obtain ⟨opened, hopened, hcanonical, -⟩ := hn.opened k (lt_length_of_pair hpair) hrole
      have hsame : opened = p := by simpa [hopened] using hpair
      subst hsame
      have hkeep := h.pair_eq hrole hpair
      exact ⟨hkeep.1, opened, hkeep.2, heq.trans hcanonical.lower_peer⟩
  verifies := by
    intro k q hq
    rcases (h.change k).mem_verifyRequests hq with hold | ⟨p, key, hasks, hcarries, heq⟩
    · obtain ⟨hrole, pair, hpair, hpeer⟩ := hn.verifies k q hold
      have hkeep := h.pair_eq hrole hpair
      exact ⟨hkeep.1, pair, hkeep.2, hpeer⟩
    · obtain ⟨hrole, pair, hpair, hpeer⟩ := hcarries.peer hn
      have hkeep := h.pair_eq hrole hpair
      have hlower := hasks.concerns.isCanonical.lower_peer
      exact ⟨hkeep.1, pair, hkeep.2, heq.trans (hlower.trans hpeer.symm)⟩
  incoming := by
    intro p k hk
    have hrole : (n.session k).role = .inbound := by
      rcases h.mem_incomingKeys hk with hold | ⟨hrole, -⟩
      · exact hn.incoming p k hold
      · exact hrole
    exact (Session.role_eq (h.identity_eq (lt_length_of_inbound hrole))).trans hrole
  outgoing := by
    intro p k hk
    rcases h.mem_outgoingKeys hk with hold | ⟨conn, relayFor, id, hsession⟩ | ⟨hrole, hgrants⟩
    · obtain ⟨hrole, pair, hpair, hpeer⟩ := hn.outgoing p k hold
      have hkeep := h.pair_eq hrole hpair
      exact ⟨hkeep.1, pair, hkeep.2, hpeer⟩
    · rw [hsession]
      exact ⟨rfl, p, rfl, rfl⟩
    · obtain ⟨pair, hpair, hpeer⟩ := hgrants.peer hn hrole
      have hkeep := h.pair_eq hrole hpair
      exact ⟨hkeep.1, pair, hkeep.2, hpeer⟩

theorem Moves.bound {n m : Node τ} {c : Cause} (h : Moves c n m) (hn : n.Bound) : m.Bound :=
  h.kept (fun hmove hn => hmove.bound hn) hn

end Federation.Node
