import Federation.Proofs.Node.Questions
import Federation.Proofs.Trust.Closing

/-!
For which pairs a connection that we opened is trusted. Our key on it is for its own pair, but the
request that is noted holds the domain of the peer only. So a verdict may name another of our
domains, and the connection is trusted for that one then.
-/

namespace Federation

namespace Setup

variable {τ : Type} [Transport τ] (setup : Setup τ)

/-- A key for a pair was queued on a session and written with its queue, at an event at which no
traffic was sent. -/
def KeyQueued (past : List (Occurrence τ)) (k : SessionKey) (p : DomainPair) : Prop :=
  ∃ before event rest added key batch accepted, past = before ++ .event event :: rest ∧
    (∀ pair stanza, event ≠ .send pair stanza) ∧
    (setup.after (before ++ [.event event])).log = (setup.after before).log ++ added ∧
    Effect.write ((setup.after past).session k).conn batch accepted ∈ added ∧
    Stanza.key p.own p.peer key ∈ batch

/-- A verdict on a session found a key valid for a pair, while a key to the peer of the pair was
outstanding on it. -/
def FoundValid (past : List (Occurrence τ)) (k : SessionKey) (p : DomainPair) : Prop :=
  ∃ before event rest stanza, past = before ++ .event event :: rest ∧
    (setup.after before).cause event = .heard k stanza ∧
    DialbackKind.of? stanza = some .result ∧ stanza.attr? "type" = some "valid" ∧
    setup.directory.pairNamed? stanza = some p ∧
    ((setup.after before).session k).hasKeyRequest p.peer

/-- The features that a peer sent on a session found its certificate standing for a pair. -/
def CertifiedBy (past : List (Occurrence τ)) (k : SessionKey) (p : DomainPair) : Prop :=
  ∃ before event rest features, past = before ++ .event event :: rest ∧
    (setup.after before).cause event = .heard k features ∧ Stanza.isStreamFeatures features ∧
    (setup.after before).Certified setup.settings.workaround k features p

/-- A key is outstanding on a session only after one for the pair of the session was
queued on it. -/
theorem exists_keyQueued {past : List (Occurrence τ)} {k : SessionKey} {d : String}
    (h : d ∈ ((setup.after past).session k).keyRequests) :
    ∃ q, ((setup.after past).session k).role = .outbound ∧
      ((setup.after past).session k).pair = some q ∧ d = q.peer ∧ setup.KeyQueued past k q := by
  obtain ⟨hrole, q, hq, hd⟩ := (setup.bound_after past).keys k d h
  refine ⟨q, hrole, hq, hd, ?_⟩
  obtain ⟨before, event, rest, heq, hnot, hafter, -⟩ :=
    setup.exists_event (Q := fun s => d ∈ s.keyRequests) List.not_mem_nil h
  obtain ⟨n, m, hbefore, hmove, hlater, hnot', hnew⟩ :=
    Node.Moves.exists_move (P := fun n => d ∈ (n.session k).keyRequests)
      (setup.moves_event before event) hnot hafter
  rcases (hmove.change k).mem_keyRequests hnew with
    hold | ⟨p, key, accepted, hmay, hp, hpair, -, -, -, -, hlog⟩
  · exact absurd hold hnot'
  · obtain ⟨added, hadded, -⟩ := hbefore.exists_added
    obtain ⟨added', hadded', -⟩ := hlater.exists_added
    rw [← setup.next_event, ← after_snoc] at hlater hadded'
    have hlater' := hlater.head hmove
    have hk := Node.lt_length_of_pair hpair
    obtain ⟨-, hidentity, hpairs⟩ := setup.kept_after hlater' rest hk
    rw [← heq] at hidentity hpairs
    have hqp : q = p := by
      have hlast := hpairs hp hpair
      simpa [hq] using hlast
    have hconn : ((setup.after past).session k).conn = (n.session k).conn :=
      Session.conn_eq hidentity
    subst hqp
    let batch := (n.session k).waiting ++ [Stanza.key q.own q.peer key]
    refine ⟨before, event, rest, added ++ ([.write (n.session k).conn batch accepted] ++ added'),
      key, batch, accepted, heq, ?_, ?_, ?_, ?_⟩
    · rintro pair stanza rfl
      cases hmay
    · rw [hadded', hlog, hadded, List.append_assoc, List.append_assoc]
    · rw [hconn]
      simp
    · simp [batch]

theorem exists_says_of_keyQueued {past : List (Occurrence τ)} {k : SessionKey} {p : DomainPair}
    (h : setup.KeyQueued past k p) :
    ∃ before event rest n j key, past = before ++ .event event :: rest ∧
      (∀ pair stanza, event ≠ .send pair stanza) ∧
      Node.Moves ((setup.after before).cause event) (setup.after before) n ∧
      Node.Moves ((setup.after before).cause event) n (setup.after (before ++ [.event event])) ∧
      (n.session j).conn = ((setup.after past).session k).conn ∧
      Node.Says n j ((setup.after before).cause event) (Stanza.key p.own p.peer key) := by
  obtain ⟨before, event, rest, added, key, batch, accepted, heq, hsend, hlog, hwrite, hkey⟩ := h
  obtain ⟨added', hlog', hsays⟩ := (setup.moves_event before event).exists_added
  rw [← next_event, ← after_snoc, hlog] at hlog'
  rw [List.append_cancel_left hlog'] at hwrite
  obtain ⟨n, j, hbefore, hlater, hconn, hbatch⟩ := hsays _ _ _ hwrite
  rw [← next_event, ← after_snoc] at hlater
  exact ⟨before, event, rest, n, j, key, heq, hsend, hbefore, hlater, hconn, hbatch _ hkey⟩

/-- The keys that are queued on a session are for its own pair. -/
theorem eq_of_keyQueued {past : List (Occurrence τ)} {k : SessionKey} {p q : DomainPair}
    (hconns : ((setup.after past).sessions.map (·.conn)).Nodup)
    (hpair : ((setup.after past).session k).pair = some q) (h : setup.KeyQueued past k p) :
    p = q := by
  obtain ⟨before, event, rest, n, j, key, heq, hsend, hbefore, hlater, hconn, hsaid⟩ :=
    setup.exists_says_of_keyQueued h
  generalize hstanza : Stanza.key p.own p.peer key = e at hsaid
  have hkind : DialbackKind.of? e = some .result := by rw [← hstanza, Stanza.of?_key]
  cases hsaid with
  | waiting _ hwaiting =>
    obtain ⟨_, _, _, _, _, _, -, -, hrequest⟩ := setup.exists_asked_of_moves hbefore hwaiting
    rw [hrequest, Stanza.of?_verifyRequest] at hkind
    cases hkind
  | key p' id secret hmay hrole hpair' =>
    have hj := Node.lt_length_of_pair hpair'
    obtain ⟨hlt, hidentity, hpairs⟩ := setup.kept_after hlater rest hj
    rw [← heq] at hlt hidentity hpairs
    have hjk : j = k :=
      Node.eq_of_nodup hconns hlt (Node.lt_length_of_pair hpair)
        ((Session.conn_eq hidentity).trans hconn)
    subst hjk
    have hsame : p' = q := by
      have hlast := hpairs hrole hpair'
      simpa [hpair] using hlast.symm
    obtain ⟨hown, hpeer⟩ := Stanza.key_injective hstanza
    rw [← hsame]
    cases p
    cases p'
    simp_all
  | utterance _ hutterance =>
    have htype : e.attr? "type" = none := by rw [← hstanza, Stanza.type_key]
    obtain ⟨pair, hcall, -⟩ := hutterance.exists_send (by rw [hkind]; rfl) htype
    exact absurd (Node.eq_of_cause_eq_call hcall) (hsend pair e)

theorem keyQueued_append {past : List (Occurrence τ)} (rest : List (Occurrence τ)) {k : SessionKey}
    {p : DomainPair} (hk : k < (setup.after past).sessions.length) (h : setup.KeyQueued past k p) :
    setup.KeyQueued (past ++ rest) k p := by
  obtain ⟨before, event, later, added, key, batch, accepted, heq, hsend, hlog, hwrite, hkey⟩ := h
  have hconn : ((setup.after (past ++ rest)).session k).conn =
      ((setup.after past).session k).conn :=
    Session.conn_eq (setup.identity_append past rest hk).2
  refine ⟨before, event, later ++ rest, added, key, batch, accepted, by simp [heq], hsend, hlog, ?_,
    hkey⟩
  rwa [hconn]

theorem keyQueued_of_foundValid {past : List (Occurrence τ)} {k : SessionKey} {p q : DomainPair}
    (hpair : ((setup.after past).session k).pair = some q) (h : setup.FoundValid past k p) :
    p.peer = q.peer ∧ setup.KeyQueued past k q := by
  obtain ⟨before, event, rest, stanza, heq, -, -, -, hnamed, hrequest⟩ := h
  have hmem : Text.lower p.peer ∈ ((setup.after before).session k).keyRequests := by
    simpa [Session.hasKeyRequest] using hrequest
  rw [(Directory.isCanonical_of_pairNamed? hnamed).lower_peer] at hmem
  obtain ⟨opened, hrole, hopened, hpeer, hqueued⟩ := setup.exists_keyQueued hmem
  have hkeep := setup.pair_append before (.event event :: rest) hrole hopened
  rw [← heq, hpair] at hkeep
  have hsame : q = opened := by simpa using hkeep.2
  rw [heq, hsame]
  exact ⟨hpeer, setup.keyQueued_append _ (Node.lt_length_of_pair hopened) hqueued⟩

/-- A certificate stands for the pair that the connection was opened for. -/
theorem eq_of_certifiedBy {past : List (Occurrence τ)} {k : SessionKey} {cid p : DomainPair}
    (hrole : ((setup.after past).session k).role = .outbound)
    (hcid : ((setup.after past).session k).pair = some cid) (h : setup.CertifiedBy past k p) :
    p = cid := by
  obtain ⟨before, event, rest, features, heq, -, -, hcertified⟩ := h
  obtain ⟨pair, hpair, hcheck⟩ := hcertified.pair
  have hlt := Node.lt_length_of_pair hpair
  have hidentity := (setup.identity_append before (.event event :: rest) hlt).2
  rw [← heq] at hidentity
  have hrole' := (Session.role_eq hidentity).symm.trans hrole
  obtain ⟨opened, hopened, hcanonical, -⟩ := (setup.bound_after before).opened k hlt hrole'
  have hsame : opened = pair := by simpa [hopened] using hpair
  rw [hsame, DomainPair.IsCanonical, hcheck] at hcanonical
  have hkeep := (setup.pair_append before (.event event :: rest) hrole' hpair).2
  rw [← heq, hcid] at hkeep
  exact (Except.ok.inj hcanonical).trans (Option.some.inj hkeep).symm

theorem isTrustedFor_of_certifiedBy {past : List (Occurrence τ)} {k : SessionKey} {p : DomainPair}
    (hrole : ((setup.after past).session k).role = .outbound) (h : setup.CertifiedBy past k p) :
    ((setup.after past).session k).isTrustedFor p := by
  obtain ⟨before, event, rest, features, heq, hcause, hfeatures, hcertified⟩ := h
  obtain ⟨pair, hpair, -⟩ := hcertified.pair
  have hidentity :=
    (setup.identity_append before (.event event :: rest) (Node.lt_length_of_pair hpair)).2
  rw [← heq] at hidentity
  have hrole' := (Session.role_eq hidentity).symm.trans hrole
  refine setup.isTrustedFor_since heq ((setup.isTrustedFor_event_iff before event).mpr (Or.inr ?_))
  rw [hcause]
  exact .certificate k features hfeatures hrole' hcertified

theorem foundValid_or_certifiedBy {past : List (Occurrence τ)} {k : SessionKey} {p q : DomainPair}
    (hrole : ((setup.after past).session k).role = .outbound)
    (hpair : ((setup.after past).session k).pair = some q)
    (h : ((setup.after past).session k).isTrustedFor p) :
    setup.FoundValid past k p ∨ p = q ∧ setup.CertifiedBy past k q := by
  obtain ⟨before, event, rest, heq, hearns⟩ := setup.exists_earns_of_isTrustedFor h
  generalize hcause : (setup.after before).cause event = c at hearns
  cases hearns with
  | verdict _ stanza hkind htype hnamed hrequest =>
    rw [setup.directory_after] at hnamed
    exact Or.inl ⟨before, event, rest, stanza, heq, hcause, hkind, htype, hnamed, hrequest⟩
  | certificate _ stanza hfeatures _ hcertified =>
    have hby : setup.CertifiedBy past k p :=
      ⟨before, event, rest, stanza, heq, hcause, hfeatures, hcertified⟩
    have hsame := setup.eq_of_certifiedBy hrole hpair hby
    exact Or.inr ⟨hsame, hsame ▸ hby⟩
  | relayed r _ stanza id hkind htype hid hnamed hrequest htarget =>
    have hinbound :=
      (setup.bound_after before).incoming p k (List.mem_of_find?_eq_some htarget)
    have hkeep := (setup.identity_append before (.event event :: rest)
      (Node.lt_length_of_inbound hinbound)).2
    rw [← heq] at hkeep
    rw [Session.role_eq hkeep, hinbound] at hrole
    cases hrole

theorem isTrustedFor_of_foundValid {past : List (Occurrence τ)} {k : SessionKey} {p : DomainPair}
    (h : setup.FoundValid past k p) : ((setup.after past).session k).isTrustedFor p := by
  obtain ⟨before, event, rest, stanza, heq, hcause, hkind, htype, hnamed, hrequest⟩ := h
  rw [← setup.directory_after before] at hnamed
  refine setup.isTrustedFor_since heq ((setup.isTrustedFor_event_iff before event).mpr (Or.inr ?_))
  rw [hcause]
  exact .verdict k stanza hkind htype hnamed hrequest

/-- A connection that we opened is trusted for just the pairs that a verdict on it found a key valid
for, and for its own pair if the features of its peer found the certificate standing for it. A key
was queued only for its own pair, so the pair that it is trusted for is one that a key was queued
for, or that the certificate stands for, just if it is its own. -/
theorem outbound_trust_exact {past : List (Occurrence τ)} {k : SessionKey} {p q : DomainPair}
    (hconns : ((setup.after past).sessions.map (·.conn)).Nodup)
    (hrole : ((setup.after past).session k).role = .outbound)
    (hpair : ((setup.after past).session k).pair = some q) :
    (((setup.after past).session k).isTrustedFor p ↔
      setup.FoundValid past k p ∨ p = q ∧ setup.CertifiedBy past k q) ∧
    (setup.FoundValid past k p → p.peer = q.peer ∧ setup.KeyQueued past k q) ∧
    (((setup.after past).session k).isTrustedFor p →
      (setup.KeyQueued past k p ∨ p = q ∧ setup.CertifiedBy past k q ↔ p = q)) := by
  refine ⟨⟨setup.foundValid_or_certifiedBy hrole hpair, ?_⟩, setup.keyQueued_of_foundValid hpair,
    fun htrusted => ⟨?_, fun heq => ?_⟩⟩
  · rintro (hvalid | ⟨rfl, hcertified⟩)
    · exact setup.isTrustedFor_of_foundValid hvalid
    · exact setup.isTrustedFor_of_certifiedBy hrole hcertified
  · rintro (hqueued | ⟨heq, -⟩)
    · exact setup.eq_of_keyQueued hconns hpair hqueued
    · exact heq
  · rcases setup.foundValid_or_certifiedBy hrole hpair htrusted with hvalid | hcertified
    · rw [heq]
      exact Or.inl (setup.keyQueued_of_foundValid hpair hvalid).2
    · exact Or.inr hcertified

def servedTwo : Setup Simulated :=
  { served with
    directory := .exact [{ name := "b.example", secret := some "secret" },
      { name := "c.example", secret := some "secret" }] }

def otherFoundValid : List (Occurrence Simulated) :=
  keySent ⟨"b.example", "a.example"⟩ ++
    [.event (.receive ⟨1000⟩ (Stanza.resultReply "a.example" "c.example" .valid none))]

theorem outbound_trust_exact_of_otherFoundValid :
    ((servedTwo.after otherFoundValid).session 0).isTrustedFor ⟨"c.example", "a.example"⟩ ∧
      ¬ (servedTwo.KeyQueued otherFoundValid 0 ⟨"c.example", "a.example"⟩ ∨
        (⟨"c.example", "a.example"⟩ : DomainPair) = ⟨"b.example", "a.example"⟩ ∧
          servedTwo.CertifiedBy otherFoundValid 0 ⟨"b.example", "a.example"⟩) := by
  have hrun : ((servedTwo.after otherFoundValid).sessions.map (·.conn)).Nodup ∧
      ((servedTwo.after otherFoundValid).session 0).role = .outbound ∧
      ((servedTwo.after otherFoundValid).session 0).pair = some ⟨"b.example", "a.example"⟩ ∧
      ((servedTwo.after otherFoundValid).session 0).isTrustedFor ⟨"c.example", "a.example"⟩ := by
    rw [after_eq_foldl]
    decide +kernel
  obtain ⟨hconns, hrole, hpair, htrusted⟩ := hrun
  obtain ⟨-, -, hexact⟩ :=
    servedTwo.outbound_trust_exact (p := ⟨"c.example", "a.example"⟩) hconns hrole hpair
  refine ⟨htrusted, ?_⟩
  intro hqueued
  have hsame := (hexact htrusted).mp hqueued
  simp at hsame

end Setup

end Federation
