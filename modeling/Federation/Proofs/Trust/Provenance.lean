import Federation.Proofs.Trust.Authority

/-!
Where the trust in a peer's own connection comes from. The peer presented a key on it, its domain
was asked about that key on a connection of ours, and answered there, while the question was open,
that the key is valid.
-/

namespace Federation

theorem Verdict.parse_eq_valid {text : String} (h : parse text = .valid) : text = "valid" := by
  unfold parse at h
  split at h
  · assumption
  · split at h <;> cases h

namespace Setup

variable {τ : Type} [Transport τ] (setup : Setup τ)

/-- A question that is open was put at some event, and has been open since. -/
theorem exists_asking {past : List (Occurrence τ)} {r : SessionKey} {domain id : String}
    (h : ((setup.after past).session r).hasVerifyRequest domain id) :
    ∃ before event rest q key, past = before ++ .event event :: rest ∧
      Node.Asks (setup.after before) q id key ((setup.after before).cause event) ∧
      q.peer = Text.lower domain ∧ ¬ ((setup.after before).session r).hasVerifyRequest domain id ∧
      ∀ mid, mid <+: rest →
        ((setup.after (before ++ .event event :: mid)).session r).hasVerifyRequest domain id := by
  obtain ⟨before, event, rest, heq, hnot, hafter, hsince⟩ :=
    setup.exists_event (Q := fun s => s.hasVerifyRequest domain id) Bool.false_ne_true h
  obtain ⟨n', m', hbefore, hmove, -, hnot', hnew⟩ :=
    Node.Moves.exists_move (P := fun n => (n.session r).hasVerifyRequest domain id)
      (setup.moves_event before event) hnot hafter
  have hmem : (Text.lower domain, id) ∈ (m'.session r).verifyRequests := by
    simpa [Session.hasVerifyRequest] using hnew
  rcases (hmove.change r).mem_verifyRequests hmem with hold | ⟨q, key, hasks, -, hpeer⟩
  · exact absurd (by simpa [Session.hasVerifyRequest] using hold) hnot'
  · have hasks' := hasks.before (setup.wellFormed_after before) hbefore
    rw [hasks'.concerns.isCanonical.lower_peer] at hpeer
    exact ⟨before, event, rest, q, key, heq, hasks', hpeer.symm, hnot, hsince⟩

/-- A question about the stream of a session was put for a key that was presented
on that session. -/
theorem exists_presented {past before rest : List (Occurrence τ)} {event : Event}
    (heq : past = before ++ .event event :: rest)
    (hcalls : ∀ pair id key, Occurrence.event (.requestVerification pair id key) ∉ past)
    (hids : ((setup.after past).sessions.map (·.streamId)).Nodup) {s : SessionKey}
    (hs : s < (setup.after past).sessions.length) {q : DomainPair} {key : String}
    (hasks : Node.Asks (setup.after before) q ((setup.after past).session s).streamId key
      ((setup.after before).cause event)) :
    ∃ presented, (setup.after before).cause event = .heard s presented ∧
      DialbackKind.of? presented = some .result ∧ presented.attr? "type" = none ∧
      setup.directory.pairNamed? presented = some q ∧
      Text.trim (presented.cdata.getD "") = key ∧ key ≠ "" := by
  generalize hcause : (setup.after before).cause event = c at hasks
  cases hasks with
  | caller pair hcheck =>
    have hmem : Occurrence.event event ∈ past := by simp [heq]
    rw [Node.eq_of_cause_eq_call hcause] at hmem
    exact absurd hmem (hcalls pair _ key)
  | presented k presented hk hkind htype hnamed hid hkey hblank =>
    obtain ⟨hlt, hidentity⟩ := setup.identity_append before (.event event :: rest) hk
    rw [← heq] at hlt hidentity
    have hsame : k = s :=
      Node.eq_of_nodup hids hlt hs ((Session.streamId_eq hidentity).trans hid)
    rw [setup.directory_after] at hnamed
    exact ⟨presented, by rw [hsame], hkind, htype, hnamed, hkey, hblank⟩

theorem isTrustedFor_append (past rest : List (Occurrence τ)) {k : SessionKey} {p : DomainPair}
    (h : ((setup.after past).session k).isTrustedFor p) :
    ((setup.after (past ++ rest)).session k).isTrustedFor p :=
  setup.kept_append (P := fun n => (n.session k).isTrustedFor p)
    (fun hmoves hn => hmoves.isTrustedFor_of_isTrustedFor hn) (fun _ _ _ hn => hn) rest h

theorem isTrustedFor_since {past before rest : List (Occurrence τ)} {o : Occurrence τ}
    (heq : past = before ++ o :: rest) {k : SessionKey} {p : DomainPair}
    (h : ((setup.after (before ++ [o])).session k).isTrustedFor p) :
    ((setup.after past).session k).isTrustedFor p := by
  have hsplit : past = (before ++ [o]) ++ rest := by simp [heq]
  rw [hsplit]
  exact setup.isTrustedFor_append _ rest h

/-- A session that is trusted for a pair was granted it at some event. -/
theorem exists_granting {past : List (Occurrence τ)} {k : SessionKey} {p : DomainPair}
    (h : ((setup.after past).session k).isTrustedFor p) :
    ∃ before event rest, past = before ++ .event event :: rest ∧
      ¬ ((setup.after before).session k).isTrustedFor p ∧
      ((setup.after (before ++ [.event event])).session k).isTrustedFor p ∧
      Node.Grants (setup.after before) p k ((setup.after before).cause event) := by
  obtain ⟨before, event, rest, heq, hnot, hafter, -⟩ :=
    setup.exists_event (Q := fun s => s.isTrustedFor p) Bool.false_ne_true h
  refine ⟨before, event, rest, heq, hnot, ?_, ?_⟩
  · rw [after_snoc]
    exact hafter
  · rcases (setup.moves_event before event).isTrustedFor (setup.wellFormed_after before)
      (setup.bound_after before) hafter with hold | hgrants
    · exact absurd hold hnot
    · exact hgrants

/-- A session is an incoming link of a pair only after a stanza on it named the pair. -/
theorem exists_naming {past : List (Occurrence τ)} {k : SessionKey} {p : DomainPair}
    (h : k ∈ (setup.after past).incomingKeys p) :
    ∃ before event rest stanza, past = before ++ .event event :: rest ∧
      (setup.after before).cause event = .heard k stanza ∧
      (DialbackKind.of? stanza).isSome ∧ setup.directory.pairNamed? stanza = some p := by
  obtain ⟨before, event, rest, heq, hnot, hsince⟩ := setup.exists_since
    (P := fun n => k ∈ n.incomingKeys p) List.not_mem_nil (fun _ _ _ hn => hn) h
  have hafter := hsince [] List.nil_prefix
  rw [after_snoc] at hafter
  rcases (setup.moves_event before event).mem_incomingKeys hafter with
    hold | ⟨stanza, hheard, hkind, hnamed⟩
  · exact absurd hold hnot
  · rw [setup.directory_after before] at hnamed
    exact ⟨before, event, rest, stanza, heq, hheard, hkind, hnamed⟩

/-- A peer's own connection becomes trusted for a pair only by the answer to an open question about
its stream, on the connection on which that was put. -/
theorem exists_relaying {past : List (Occurrence τ)} {s : SessionKey} {p : DomainPair}
    (hrole : ((setup.after past).session s).role = .inbound)
    (htrusted : ((setup.after past).session s).isTrustedFor p) :
    ∃ before event rest r valid, past = before ++ .event event :: rest ∧
      s < (setup.after past).sessions.length ∧ p.IsCanonical setup.directory.isServed ∧
      (setup.after before).cause event = .heard r valid ∧
      DialbackKind.of? valid = some .verify ∧ valid.attr? "type" = some "valid" ∧
      valid.attr? "id" = some ((setup.after past).session s).streamId ∧
      setup.directory.pairNamed? valid = some p ∧
      ((setup.after before).session r).hasVerifyRequest p.peer
        ((setup.after past).session s).streamId ∧
      s ∈ (setup.after before).incomingKeys p ∧ ¬ ((setup.after before).session s).isTrustedFor p ∧
      ((setup.after (before ++ [.event event])).session s).isTrustedFor p := by
  obtain ⟨before, event, rest, heq, hnot, hnew, hgrants⟩ := setup.exists_granting htrusted
  have hbound := setup.bound_after before
  have hp := hgrants.isCanonical
  have hinbound : ∀ pair, ((setup.after before).session s).role = .outbound →
      ((setup.after before).session s).pair = some pair → False := by
    intro pair houtbound hpair
    have hlast := (setup.pair_append before (.event event :: rest) houtbound hpair).1
    rw [← heq, hrole] at hlast
    cases hlast
  generalize hcause : (setup.after before).cause event = c at hgrants
  cases hgrants with
  | verdict _ stanza hkind htype hnamed hrequest =>
    obtain ⟨houtbound, pair, hpair, -⟩ := hbound.peer_of_hasKeyRequest hp hrequest
    exact (hinbound pair houtbound hpair).elim
  | certificate _ stanza pair hkind houtbound hpair => exact (hinbound pair houtbound hpair).elim
  | relayed r _ valid id hkind htype hid hnamed hrequest hlink hstream =>
    have hs := Node.lt_length_of_inbound (hbound.incoming p s hlink)
    obtain ⟨hlt, hidentity⟩ := setup.identity_append before (.event event :: rest) hs
    rw [← heq] at hlt hidentity
    have hstream' : ((setup.after past).session s).streamId = id :=
      (Session.streamId_eq hidentity).trans hstream
    subst hstream'
    obtain ⟨text, htext, hvalid⟩ := Option.map_eq_some_iff.mp htype
    rw [Verdict.parse_eq_valid hvalid] at htext
    rw [setup.directory_after] at hnamed hp
    exact ⟨before, event, rest, r, valid, heq, hlt, hp, hcause, hkind, htext, hid, hnamed, hrequest,
      hlink, hnot, hnew⟩

/-- A peer's own connection is trusted for a pair only after three things, in the order in which
they are stated last: a key was presented on it by the peer of the pair, which put a question to
that peer; a stanza on it named the pair; and the peer answered the question, which was open all the
time between, on the connection it was put on. -/
theorem inbound_trust_provenance {past : List (Occurrence τ)} {s : SessionKey} {p : DomainPair}
    (hcalls : ∀ pair id key, Occurrence.event (.requestVerification pair id key) ∉ past)
    (hids : ((setup.after past).sessions.map (·.streamId)).Nodup)
    (hrole : ((setup.after past).session s).role = .inbound)
    (htrusted : ((setup.after past).session s).isTrustedFor p) :
    ∃ r before asking between granting rest,
      past = before ++ .event asking :: (between ++ .event granting :: rest) ∧
      (∃ presented q, (setup.after before).cause asking = .heard s presented ∧
        DialbackKind.of? presented = some .result ∧ presented.attr? "type" = none ∧
        Text.trim (presented.cdata.getD "") ≠ "" ∧
        setup.directory.pairNamed? presented = some q ∧ q.peer = p.peer) ∧
      ¬ ((setup.after before).session r).hasVerifyRequest p.peer
        ((setup.after past).session s).streamId ∧
      (∀ mid, mid <+: between →
        ((setup.after (before ++ .event asking :: mid)).session r).role = .outbound ∧
        ((setup.after (before ++ .event asking :: mid)).session r).hasVerifyRequest p.peer
          ((setup.after past).session s).streamId) ∧
      (∃ valid, (setup.after (before ++ .event asking :: between)).cause granting =
          .heard r valid ∧
        DialbackKind.of? valid = some .verify ∧ valid.attr? "type" = some "valid" ∧
        valid.attr? "id" = some ((setup.after past).session s).streamId ∧
        setup.directory.pairNamed? valid = some p) ∧
      (∃ earlier naming later stanza,
        before ++ .event asking :: between = earlier ++ .event naming :: later ∧
        (setup.after earlier).cause naming = .heard s stanza ∧
        (DialbackKind.of? stanza).isSome ∧ setup.directory.pairNamed? stanza = some p) ∧
      s ∈ (setup.after (before ++ .event asking :: between)).incomingKeys p ∧
      ¬ ((setup.after (before ++ .event asking :: between)).session s).isTrustedFor p ∧
      ((setup.after (before ++ .event asking :: between ++ [.event granting])).session
        s).isTrustedFor p := by
  obtain ⟨history, granting, rest, r, valid, hpast, hs, hp, hcause, hkind, htype, hid, hnamed,
    hrequest, hlink, hnot, hnew⟩ := setup.exists_relaying hrole htrusted
  obtain ⟨before, asking, between, q, key, hhistory, hasks, hpeer, hunasked, hopen⟩ :=
    setup.exists_asking hrequest
  rw [hp.lower_peer] at hpeer
  have hoccurred : past = before ++ .event asking :: (between ++ .event granting :: rest) := by
    rw [hpast, hhistory]
    simp
  obtain ⟨presented, hasking, hresult, huntyped, hnamed', hkey, hblank⟩ :=
    setup.exists_presented hoccurred hcalls hids hs hasks
  rw [← hkey] at hblank
  obtain ⟨earlier, naming, later, stanza, hearlier, hheard, hdialback, hstanza⟩ :=
    setup.exists_naming hlink
  rw [hhistory] at hearlier hcause hlink hnot hnew
  refine ⟨r, before, asking, between, granting, rest, hoccurred,
    ⟨presented, q, hasking, hresult, huntyped, hblank, hnamed', hpeer⟩, hunasked, ?_,
    ⟨valid, hcause, hkind, htype, hid, hnamed⟩,
    ⟨earlier, naming, later, stanza, hearlier, hheard, hdialback, hstanza⟩, hlink, hnot, hnew⟩
  intro mid hmid
  have hasked := hopen mid hmid
  rw [← setup.directory_after (before ++ .event asking :: mid)] at hp
  exact ⟨((setup.bound_after _).peer_of_hasVerifyRequest hp hasked).1, hasked⟩

def keyVerified : List (Occurrence Simulated) :=
  [.event (.accept ⟨1⟩ "192.0.2.1"),
    .event (.receive ⟨1⟩ (Stanza.key "a.example" "b.example" "key")),
    .event (.streamOpened ⟨1000⟩ { id := some "x" }),
    .event (.receive ⟨1000⟩
      (Stanza.verifyReply "a.example" "b.example" (identifierText 1) true))]

theorem inbound_trust_provenance_of_keyVerified :
    ∃ r before asking between granting rest,
      keyVerified = before ++ .event asking :: (between ++ .event granting :: rest) ∧
      (∃ presented q, (served.after before).cause asking = .heard 0 presented ∧
        DialbackKind.of? presented = some .result ∧ presented.attr? "type" = none ∧
        Text.trim (presented.cdata.getD "") ≠ "" ∧
        served.directory.pairNamed? presented = some q ∧ q.peer = "a.example") ∧
      (∃ valid, (served.after (before ++ .event asking :: between)).cause granting =
          .heard r valid ∧
        DialbackKind.of? valid = some .verify ∧ valid.attr? "type" = some "valid") := by
  have hcalls : ∀ pair id key,
      Occurrence.event (.requestVerification pair id key) ∉ keyVerified := by
    intro pair id key h
    simp [keyVerified] at h
  have hrun : ((served.after keyVerified).sessions.map (·.streamId)).Nodup ∧
      ((served.after keyVerified).session 0).role = .inbound ∧
      ((served.after keyVerified).session 0).isTrustedFor ⟨"b.example", "a.example"⟩ := by
    rw [after_eq_foldl]
    decide +kernel
  obtain ⟨hids, hrole, htrusted⟩ := hrun
  obtain ⟨r, before, asking, between, granting, rest, hpast, hpresented, -, -, hvalid, -⟩ :=
    served.inbound_trust_provenance hcalls hids hrole htrusted
  obtain ⟨valid, hheard, hkind, htype, -⟩ := hvalid
  exact ⟨r, before, asking, between, granting, rest, hpast, hpresented,
    ⟨valid, hheard, hkind, htype⟩⟩

end Setup

end Federation
