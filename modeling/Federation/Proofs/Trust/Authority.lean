import Federation.Directory.Table
import Federation.Proofs.Node.History
import Federation.Transport.Simulated

/-!
Who can vouch for a domain. An element makes a pair trusted only if it arrives on a connection that
we opened to the peer of that pair, so a server can speak for its own domain and for no other.
-/

namespace Federation

namespace Node

variable {τ : Type} [Transport τ]

section Moves

variable {n m : Node τ} {c : Cause} {k : SessionKey}

theorem Moves.mem_keyRequests (h : Moves c n m) {d : String}
    (hd : d ∈ (m.session k).keyRequests) :
    d ∈ (n.session k).keyRequests ∨ ∃ n' p, MayPresent (τ := τ) n' k p c := by
  induction h with
  | refl => exact Or.inl hd
  | tail _ hmove ih =>
    rcases (hmove.change k).mem_keyRequests hd with hold | ⟨p, _, _, hmay, -⟩
    · exact ih hold
    · exact Or.inr ⟨_, p, hmay⟩

theorem Moves.mem_verifyRequests (h : Moves c n m) {q : String × String}
    (hq : q ∈ (m.session k).verifyRequests) :
    q ∈ (n.session k).verifyRequests ∨ ∃ n' p key, Asks (τ := τ) n' p q.2 key c := by
  induction h with
  | refl => exact Or.inl hq
  | tail _ hmove ih =>
    rcases (hmove.change k).mem_verifyRequests hq with hold | ⟨p, key, hasks, -⟩
    · exact ih hold
    · exact Or.inr ⟨_, p, key, hasks⟩

theorem Moves.trust_eq (h : Moves c n m) (htrust : (m.session k).trust = .trusted) :
    (n.session k).trust = .trusted ∨ ∃ conn trust, c = .call (.tlsCompleted conn trust) := by
  induction h with
  | refl => exact Or.inl htrust
  | tail _ hmove ih =>
    rcases (hmove.change k).trust_eq htrust with hold | hcall
    · exact ih hold
    · exact Or.inr hcall

theorem Moves.mem_incomingKeys (h : Moves c n m) {p : DomainPair} (hk : k ∈ m.incomingKeys p) :
    k ∈ n.incomingKeys p ∨ ∃ stanza, c = .heard k stanza ∧ (DialbackKind.of? stanza).isSome ∧
      n.directory.pairNamed? stanza = some p := by
  induction h with
  | refl => exact Or.inl hk
  | tail hmoves hmove ih =>
    rcases hmove.mem_incomingKeys hk with hold | ⟨-, stanza, hheard, hkind, hnamed⟩
    · exact ih hold
    · rw [Moves.directory_eq hmoves] at hnamed
      exact Or.inr ⟨stanza, hheard, hkind, hnamed⟩

end Moves

/-- A grant that is made during an event was due when the event began. -/
theorem Grants.of_moves {n m : Node τ} (hlive : n.WellFormed) (hn : n.Bound) {event : Event}
    (h : Moves (n.cause event) n m) {p : DomainPair} {k : SessionKey}
    (hgrants : Grants m p k (n.cause event)) : Grants n p k (n.cause event) := by
  have hm : m.Bound := h.bound hn
  have hpm := hgrants.isCanonical
  generalize hcause : n.cause event = c at h hgrants ⊢
  cases hgrants with
  | verdict _ stanza hkind htype hnamed hrequest =>
    refine .verdict k stanza hkind htype (by rwa [← h.directory_eq]) ?_
    have hmem : Text.lower p.peer ∈ (m.session k).keyRequests := by
      simpa [Session.hasKeyRequest] using hrequest
    rcases h.mem_keyRequests hmem with hold | ⟨_, _, hmay⟩
    · simpa [Session.hasKeyRequest] using hold
    · cases hmay with
      | features _ hnone => simp [hkind] at hnone
  | certificate _ stanza pair hkind hrole hpair hcheck htrusted =>
    obtain ⟨conn, -, hfind⟩ := exists_of_cause_eq_heard hcause
    have hk := (hlive.live conn k hfind).1
    have hrole' : (n.session k).role = .outbound :=
      (Session.role_eq (h.identity_eq hk)).symm.trans hrole
    obtain ⟨opened, hopened, -⟩ := hn.opened k hk hrole'
    have hsame : opened = pair := by
      have hkeep := (h.pair_eq hrole' hopened).2
      simpa [hpair] using hkeep.symm
    rw [hsame] at hopened
    refine .certificate k stanza pair hkind hrole' hopened (by rwa [← h.directory_eq]) ?_
    rcases h.trust_eq htrusted with hold | ⟨_, _, hcall⟩
    · exact hold
    · cases hcall
  | relayed r _ stanza id hkind htype hid hnamed hrequest hlink hstream =>
    have hmem : (Text.lower p.peer, id) ∈ (m.session r).verifyRequests := by
      simpa [Session.hasVerifyRequest] using hrequest
    have houtbound := (hm.peer_of_hasVerifyRequest hpm hrequest).1
    have hinbound := hm.incoming p k hlink
    have hold : k ∈ n.incomingKeys p := by
      rcases h.mem_incomingKeys hlink with hold | ⟨_, hheard, -⟩
      · exact hold
      · cases hheard
        rw [houtbound] at hinbound
        cases hinbound
    have hk := lt_length_of_inbound (hn.incoming p k hold)
    have hstream' : (n.session k).streamId = id :=
      (Session.streamId_eq (h.identity_eq hk)).symm.trans hstream
    refine .relayed r k stanza id hkind htype hid (by rwa [← h.directory_eq]) ?_ hold hstream'
    rcases h.mem_verifyRequests hmem with hrequested | ⟨_, _, _, hasks⟩
    · simpa [Session.hasVerifyRequest] using hrequested
    · cases hasks with
      | presented _ _ _ hresult => simp [hkind] at hresult

theorem Moves.isTrustedFor {n m : Node τ} (hlive : n.WellFormed) (hn : n.Bound) {event : Event}
    (h : Moves (n.cause event) n m) {p : DomainPair} {k : SessionKey}
    (htrusted : (m.session k).isTrustedFor p) :
    (n.session k).isTrustedFor p ∨ Grants n p k (n.cause event) := by
  by_cases hold : (n.session k).isTrustedFor p
  · exact Or.inl hold
  · obtain ⟨n', m', hbefore, hmove, -, hnot, hnew⟩ :=
      Moves.exists_move (P := fun n => (n.session k).isTrustedFor p) h hold htrusted
    rcases (hmove.change k).isTrustedFor hnew with hsame | hgrants
    · exact absurd hsame hnot
    · exact Or.inr (hgrants.of_moves hlive hn hbefore)

theorem Change.isTrustedFor_of_isTrustedFor {n m : Node τ} {c : Cause} {k : SessionKey}
    {s : Session} (h : Change n m c k s) {p : DomainPair} (hp : (n.session k).isTrustedFor p) :
    s.isTrustedFor p := by
  have hlt : k < n.sessions.length := lt_length_of_session (P := (·.isTrustedFor p)) nofun hp
  cases h with
  | remark f hremark =>
    rw [Session.isTrustedFor, (hremark.ledger_eq _).2.2.1]
    exact hp
  | granted base q hgrants hbase =>
    rw [Session.isTrustedFor, (Session.granted_of_eq hbase).trusted, List.contains_iff_mem]
    exact List.mem_insert_of_mem (List.contains_iff_mem.mp hp)
  | accepted conn address hk => exact absurd hlt (Nat.not_lt.mpr (Nat.le_of_eq hk.symm))
  | opened conn q relayFor hk => exact absurd hlt (Nat.not_lt.mpr (Nat.le_of_eq hk.symm))
  | _ => exact hp

theorem Moves.isTrustedFor_of_isTrustedFor {n m : Node τ} {c : Cause} (h : Moves c n m)
    {k : SessionKey} {p : DomainPair} (hp : (n.session k).isTrustedFor p) :
    (m.session k).isTrustedFor p :=
  h.kept (P := fun n => (n.session k).isTrustedFor p)
    (fun hmove hn => (hmove.change k).isTrustedFor_of_isTrustedFor hn) hp

theorem Moves.isAuthenticated {n m : Node τ} (hlive : n.WellFormed) (hn : n.Bound) {event : Event}
    (h : Moves (n.cause event) n m) {p : DomainPair} (htrusted : m.registry.isAuthenticated p) :
    n.registry.isAuthenticated p ∨ ∃ k, Grants n p k (n.cause event) := by
  by_cases hold : n.registry.isAuthenticated p
  · exact Or.inl hold
  · obtain ⟨n', m', hbefore, hmove, -, hnot, hnew⟩ :=
      Moves.exists_move (P := fun n => n.registry.isAuthenticated p) h hold htrusted
    rcases hmove.isAuthenticated hnew with hsame | ⟨k, hgrants⟩
    · exact absurd hsame hnot
    · exact Or.inr ⟨k, hgrants.of_moves hlive hn hbefore⟩

omit [Transport τ] in
/-- Whatever is granted was heard on a connection that we opened to the peer of the pair. -/
theorem Grants.exists_speaker {n : Node τ} (hlive : n.WellFormed) (hn : n.Bound) {p : DomainPair}
    {k : SessionKey} {event : Event} (h : Grants n p k (n.cause event)) :
    ∃ conn stanza r cid, event = .receive conn stanza ∧ n.find? conn = some r ∧
      (n.session r).role = .outbound ∧ (n.session r).pair = some cid ∧ cid.peer = p.peer ∧
      Effect.connect cid (some conn) ∈ n.log := by
  have hp := h.isCanonical
  generalize hcause : n.cause event = c at h
  have hspeaker : ∀ r stanza, c = .heard r stanza → (n.session r).role = .outbound →
      (∃ cid, (n.session r).pair = some cid ∧ cid.peer = p.peer) →
      ∃ conn stanza r cid, event = .receive conn stanza ∧ n.find? conn = some r ∧
        (n.session r).role = .outbound ∧ (n.session r).pair = some cid ∧ cid.peer = p.peer ∧
        Effect.connect cid (some conn) ∈ n.log := by
    intro r stanza hheard hrole hpeer
    obtain ⟨conn, hevent, hfind⟩ := exists_of_cause_eq_heard (hcause.trans hheard)
    obtain ⟨cid, hcid, hpeer⟩ := hpeer
    obtain ⟨hr, hconn⟩ := hlive.live conn r hfind
    obtain ⟨opened, hopened, -, hlog⟩ := hn.opened r hr hrole
    have hsame : opened = cid := by simpa [hopened] using hcid
    rw [hsame, hconn] at hlog
    exact ⟨conn, stanza, r, cid, hevent, hfind, hrole, hcid, hpeer, hlog⟩
  cases h with
  | verdict _ stanza hkind htype hnamed hrequest =>
    obtain ⟨hrole, hpeer⟩ := hn.peer_of_hasKeyRequest hp hrequest
    exact hspeaker k stanza rfl hrole hpeer
  | certificate _ stanza pair hkind hrole hpair hcheck htrusted =>
    have hpeer := (Grants.certificate k stanza pair hkind hrole hpair hcheck htrusted).peer hn hrole
    exact hspeaker k stanza rfl hrole hpeer
  | relayed r _ stanza id hkind htype hid hnamed hrequest =>
    obtain ⟨hrole, hpeer⟩ := hn.peer_of_hasVerifyRequest hp hrequest
    exact hspeaker r stanza rfl hrole hpeer

end Node

namespace Setup

variable {τ : Type} [Transport τ] (setup : Setup τ)

/-- Every connection that we opened is bound to the peer it was opened for, and only an element that
arrives on one that was opened to the peer of a pair makes a session, or the pair, trusted. -/
theorem trust_comes_from_peer (past : List (Occurrence τ)) :
    (∀ r < (setup.after past).sessions.length, ((setup.after past).session r).role = .outbound →
      ∃ cid, ((setup.after past).session r).pair = some cid ∧
        Effect.connect cid (some ((setup.after past).session r).conn) ∈ (setup.after past).log ∧
        (∀ d ∈ ((setup.after past).session r).keyRequests, d = cid.peer) ∧
        (∀ q ∈ ((setup.after past).session r).verifyRequests, q.1 = cid.peer) ∧
        ∀ p, r ∈ (setup.after past).outgoingKeys p → p.peer = cid.peer) ∧
    ∀ event p,
      (∃ k, ¬ ((setup.after past).session k).isTrustedFor p ∧
        ((setup.after (past ++ [.event event])).session k).isTrustedFor p) ∨
      (¬ (setup.after past).registry.isAuthenticated p ∧
        (setup.after (past ++ [.event event])).registry.isAuthenticated p) →
      ∃ conn stanza r cid, event = .receive conn stanza ∧ (setup.after past).find? conn = some r ∧
        ((setup.after past).session r).role = .outbound ∧
        ((setup.after past).session r).pair = some cid ∧ cid.peer = p.peer ∧
        Effect.connect cid (some conn) ∈ (setup.after past).log := by
  have hlive := setup.wellFormed_after past
  have hn := setup.bound_after past
  refine ⟨?_, ?_⟩
  · intro r hr hrole
    obtain ⟨cid, hcid, -, hlog⟩ := hn.opened r hr hrole
    have hsame : ∀ pair, ((setup.after past).session r).pair = some pair → pair = cid := by
      intro pair hpair
      simpa [hcid] using hpair.symm
    refine ⟨cid, hcid, hlog, ?_, ?_, ?_⟩
    · intro d hd
      obtain ⟨-, pair, hpair, hpeer⟩ := hn.keys r d hd
      rw [hpeer, hsame pair hpair]
    · intro q hq
      obtain ⟨-, pair, hpair, hpeer⟩ := hn.verifies r q hq
      rw [hpeer, hsame pair hpair]
    · intro p hp
      obtain ⟨-, pair, hpair, hpeer⟩ := hn.outgoing p r hp
      rw [← hpeer, hsame pair hpair]
  · intro event p hgain
    have hmoves := setup.moves_event past event
    rcases hgain with ⟨k, hnot, hnew⟩ | ⟨hnot, hnew⟩
    · rw [after_snoc] at hnew
      rcases hmoves.isTrustedFor hlive hn hnew with hold | hgrants
      · exact absurd hold hnot
      · exact hgrants.exists_speaker hlive hn
    · rw [after_snoc] at hnew
      rcases hmoves.isAuthenticated hlive hn hnew with hold | ⟨k, hgrants⟩
      · exact absurd hold hnot
      · exact hgrants.exists_speaker hlive hn

def served : Setup Simulated where
  settings := {}
  directory := .exact [{ name := "b.example", secret := some "secret" }]
  transport := {}
  issued := 0

def keySent (pair : DomainPair) : List (Occurrence Simulated) :=
  [.event (.openConnection pair none), .event (.streamOpened ⟨1000⟩ { id := some "x" })]

/-- The peer of the connection finds the key right, and only then the pair is trusted. -/
theorem trust_comes_from_peer_of_valid_key :
    let pair : DomainPair := ⟨"b.example", "a.example"⟩
    let valid : Event :=
      .receive ⟨1000⟩ (Stanza.resultReply "a.example" "b.example" .valid none)
    (¬ ((served.after (keySent pair)).session 0).isTrustedFor pair ∧
      ((served.after (keySent pair ++ [.event valid])).session 0).isTrustedFor pair) ∧
    ∃ conn stanza r cid, valid = .receive conn stanza ∧
      (served.after (keySent pair)).find? conn = some r ∧
      ((served.after (keySent pair)).session r).role = .outbound ∧
      ((served.after (keySent pair)).session r).pair = some cid ∧ cid.peer = pair.peer ∧
      Effect.connect cid (some conn) ∈ (served.after (keySent pair)).log := by
  intro pair valid
  have hgain : ¬ ((served.after (keySent pair)).session 0).isTrustedFor pair ∧
      ((served.after (keySent pair ++ [.event valid])).session 0).isTrustedFor pair := by
    rw [after_eq_foldl, after_eq_foldl]
    decide +kernel
  exact ⟨hgain, (served.trust_comes_from_peer (keySent pair)).2 valid pair (Or.inl ⟨0, hgain⟩)⟩

end Setup

end Federation
