import Federation.Proofs.Node.Receipt
import Federation.Proofs.Node.Tls
import Federation.Proofs.Trust.Provenance

/-!
Trust on a connection that is being torn down. No grant asks whether the session is closing, so
until the transport reports the end of the connection it becomes trusted as any other. It stays
closing, and the traffic of no pair goes over it.
-/

namespace Federation

namespace Node

variable {τ : Type}

/-- A certificate stands for a pair: it is trusted, the peer does not offer dialback, and no key is
presented to it all the same. -/
structure Certified (n : Node τ) (workaround : Bool) (k : SessionKey) (features : Element)
    (p : DomainPair) : Prop where
  pair : ∃ pair, (n.session k).pair = some pair ∧
    DomainPair.checked pair.own pair.peer n.directory.isServed = .ok p
  trusted : (n.session k).trust = .trusted
  method : ∀ method, (n.session k).method = some method → method = dialbackMethod
  offer : features.hasChild "dialback" Namespace.dialbackFeature = false
  workaround : workaround = false

/-- What makes a session trusted for a pair, exactly: a verdict on a key that is outstanding, the
features of a peer if its certificate stands for the pair, or the answer to a question about the
stream of the session. -/
inductive Earns (workaround : Bool) (n : Node τ) (p : DomainPair) : SessionKey → Cause → Prop
  | verdict (k : SessionKey) (stanza : Element) (hkind : DialbackKind.of? stanza = some .result)
      (htype : stanza.attr? "type" = some "valid") (hnamed : n.directory.pairNamed? stanza = some p)
      (hrequest : (n.session k).hasKeyRequest p.peer) : Earns workaround n p k (.heard k stanza)
  | certificate (k : SessionKey) (stanza : Element) (hfeatures : Stanza.isStreamFeatures stanza)
      (hrole : (n.session k).role = .outbound) (hcertified : n.Certified workaround k stanza p) :
      Earns workaround n p k (.heard k stanza)
  | relayed (r k : SessionKey) (stanza : Element) (id : String)
      (hkind : DialbackKind.of? stanza = some .verify)
      (htype : stanza.attr? "type" = some "valid") (hid : stanza.attr? "id" = some id)
      (hnamed : n.directory.pairNamed? stanza = some p)
      (hrequest : (n.session r).hasVerifyRequest p.peer id)
      (htarget : n.incomingByStream? p id = some k) : Earns workaround n p k (.heard r stanza)

theorem Earns.lt_length {workaround : Bool} {n : Node τ} (hbound : n.Bound) {p : DomainPair}
    {k : SessionKey} {c : Cause} (h : Earns workaround n p k c) : k < n.sessions.length := by
  cases h with
  | verdict _ stanza hkind htype hnamed hrequest =>
    have hp := Directory.isCanonical_of_pairNamed? hnamed
    obtain ⟨-, pair, hpair, -⟩ := hbound.peer_of_hasKeyRequest hp hrequest
    exact lt_length_of_pair hpair
  | certificate _ stanza hfeatures hrole hcertified =>
    obtain ⟨pair, hpair, -⟩ := hcertified.pair
    exact lt_length_of_pair hpair
  | relayed r _ stanza id hkind htype hid hnamed hrequest htarget =>
    exact lt_length_of_inbound (hbound.incoming p k (List.mem_of_find?_eq_some htarget))

structure Trusts (n m : Node τ) (p : DomainPair) (k : SessionKey) : Prop where
  sessions : ∀ j q, (m.session j).isTrustedFor q ↔ (n.session j).isTrustedFor q ∨ j = k ∧ q = p
  pair : m.registry.isAuthenticated p

theorem Trusts.of_eq {n n' m m' : Node τ} {p : DomainPair} {k : SessionKey} (h : Trusts n m p k)
    (hbefore : ∀ j, (n.session j).trusted = (n'.session j).trusted)
    (hafter : ∀ j, (m'.session j).trusted = (m.session j).trusted)
    (hregistry : m'.registry = m.registry) : Trusts n' m' p k where
  sessions := by
    intro j q
    have hsame := h.sessions j q
    simp only [Session.isTrustedFor] at hsame ⊢
    rw [← hbefore, hafter]
    exact hsame
  pair := by
    rw [hregistry]
    exact h.pair

/-- A connection that we opened joins no pair by what is heard on it, so the links on which peers
announced a stream stay as they are. -/
theorem incomingByStream?_takeIn {n : Node τ} {r : SessionKey}
    (hrole : (n.session r).role = .outbound) (spelled p : DomainPair) (id : String) :
    (n.takeIn r spelled p).incomingByStream? p id = n.incomingByStream? p id := by
  have hadopt := incomingByStream?_alter n r (f := (·.adoptPair spelled)) (fun _ => rfl) p id
  have hrole' : (((n.alter r (·.adoptPair spelled)).withEntry p).session r).role = .outbound :=
    (view_session_alter Session.role (f := (·.adoptPair spelled)) (fun _ => rfl) n r r).trans hrole
  have htaken : n.takeIn r spelled p = (n.alter r (·.adoptPair spelled)).withEntry p := by
    simp only [takeIn, hrole', reduceCtorEq, if_false]
  rw [htaken, ← hadopt, incomingByStream?, incomingKeys_withEntry]
  rfl

variable [Transport τ]

section Unheard

variable {n m : Node τ} {c : Cause} (hc : ∀ k stanza, c ≠ .heard k stanza) (h : Moves c n m)
  {p : DomainPair}

include hc h

/-- Trust is granted only for what is heard. -/
theorem Moves.isTrustedFor_of_unheard {k : SessionKey} (hp : (m.session k).isTrustedFor p) :
    (n.session k).isTrustedFor p := by
  induction h with
  | refl => exact hp
  | tail _ hmove ih =>
    rcases (hmove.change k).isTrustedFor hp with hold | hgrants
    · exact ih hold
    · cases hgrants <;> exact absurd rfl (hc _ _)

theorem Moves.isAuthenticated_of_unheard (hp : m.registry.isAuthenticated p) :
    n.registry.isAuthenticated p := by
  induction h with
  | refl => exact hp
  | tail _ hmove ih =>
    rcases hmove.isAuthenticated hp with hold | ⟨k, hgrants⟩
    · exact ih hold
    · cases hgrants <;> exact absurd rfl (hc _ _)

end Unheard

theorem trusts_authenticate {n : Node τ} {p : DomainPair} {k : SessionKey}
    (hk : k < n.sessions.length) (hentry : (n.registry.get? p).isSome) :
    Trusts n (n.authenticate p k) p k :=
  ⟨isTrustedFor_authenticate_iff hk, isAuthenticated_authenticate hentry k⟩

/-- An answer that finds a key valid makes the session trusted that was asked about, and is passed
on to it. -/
theorem relayVerdict_of_target {n : Node τ} {r k : SessionKey} {p : DomainPair} {stanza : Element}
    {id : String} (hid : stanza.attr? "id" = some id)
    (hrequest : (n.session r).hasVerifyRequest p.peer id)
    (htarget : n.incomingByStream? p id = some k) :
    n.relayVerdict r p stanza .valid =
      ((n.alter r (·.dropVerifyRequest p.peer id)).authenticate p k).reply k
        (Stanza.resultReply p.own p.peer .valid none) := by
  have htarget' : (n.alter r (·.dropVerifyRequest p.peer id)).incomingByStream? p id = some k :=
    (incomingByStream?_alter n r (f := (·.dropVerifyRequest p.peer id)) (fun _ => rfl) p id).trans
      htarget
  simp only [relayVerdict, hid, hrequest, Bool.not_true, Bool.false_eq_true, if_false,
    decide_true, if_true, authenticateByStream, htarget']
  rfl

/-- The answer to the question that was asked about its stream makes a session trusted. -/
theorem trusts_relayVerdict {n : Node τ} {r k : SessionKey} {p : DomainPair} {stanza : Element}
    {id : String} (hid : stanza.attr? "id" = some id)
    (hrequest : (n.session r).hasVerifyRequest p.peer id)
    (htarget : n.incomingByStream? p id = some k) (hk : k < n.sessions.length)
    (hentry : (n.registry.get? p).isSome) :
    Trusts n (n.relayVerdict r p stanza .valid) p k := by
  let settled := n.alter r (·.dropVerifyRequest p.peer id)
  rw [relayVerdict_of_target hid hrequest htarget]
  exact (trusts_authenticate (n := settled) (by simpa [settled] using hk) hentry).of_eq
    (view_session_alter Session.trusted (f := (·.dropVerifyRequest p.peer id)) (fun _ => rfl) n r)
    (fun _ => rfl) rfl

/-- Features are heeded while no method but dialback is noted. -/
theorem method_unsettled {noted : Option String}
    (h : ∀ method, noted = some method → method = dialbackMethod) :
    (noted.isSome && noted != some dialbackMethod) = false := by
  cases noted with
  | none => rfl
  | some method => simp [h method rfl]

section Features

variable {n : Node τ} (hn : n.HasCanonicalEntries) {k : SessionKey} {features : Element}
  {workaround : Bool}

include hn

theorem receiveFeatures_of_certified {p : DomainPair}
    (hactive : (n.session k).trust = .trusted → (n.session k).tlsActive)
    (h : n.Certified workaround k features p) :
    (n.receiveFeatures workaround k features).2 =
      ((n.withEntry p).alter k (·.setMethod certificateMethod)).authenticate p k := by
  obtain ⟨⟨pair, hpair, hcheck⟩, htrusted, hmethod, hoffer, hworkaround⟩ := h
  have hsettled := method_unsettled hmethod
  simp [receiveFeatures, hsettled, hpair, hactive htrusted, htrusted, hoffer, hworkaround,
    entry_eq hn, hcheck]

/-- Without such a certificate the features of a peer lead to the wait for TLS, to an error of the
stream or to a key that is presented, if they are heeded at all. -/
theorem receiveFeatures_of_not_certified (h : ∀ p, ¬ n.Certified workaround k features p) :
    (n.receiveFeatures workaround k features).2 = n ∨
      (n.receiveFeatures workaround k features).2 = n.alter k (·.setPhase .tlsDecision) ∨
      (∃ condition, (n.receiveFeatures workaround k features).2 = n.failStream k condition true) ∨
      (n.receiveFeatures workaround k features).2 = n.presentKey k := by
  unfold receiveFeatures
  simp only [entry_eq hn]
  split
  · exact Or.inl rfl
  · rename_i hmethod
    cases hpair : (n.session k).pair with
    | none => exact Or.inl rfl
    | some pair =>
      simp only
      split
      · exact Or.inr (Or.inl rfl)
      · split
        · rename_i htrusted
          simp only [Bool.and_eq_true, decide_eq_true_eq, Bool.not_eq_true'] at htrusted
          cases hcheck : DomainPair.checked pair.own pair.peer n.directory.isServed with
          | error e => exact Or.inr (Or.inr (Or.inl ⟨_, rfl⟩))
          | ok p =>
            refine absurd ⟨⟨pair, hpair, hcheck⟩, htrusted.1.1, ?_, htrusted.1.2, htrusted.2⟩ (h p)
            intro method hsome
            simpa [hsome] using hmethod
        · split
          · exact Or.inr (Or.inr (Or.inl ⟨_, rfl⟩))
          · exact Or.inr (Or.inr (Or.inr rfl))

/-- That is nothing that a header would not lead to. -/
theorem moves_of_not_certified (hrole : (n.session k).role = .outbound)
    (h : ∀ p, ¬ n.Certified workaround k features p) :
    Moves (.header k {}) n (n.receiveFeatures workaround k features).2 := by
  rcases receiveFeatures_of_not_certified hn h with heq | heq | ⟨condition, heq⟩ | heq <;>
    simp only [heq]
  · exact .refl
  · exact .single (.remark k _ (.phase _ rfl))
  · exact moves_failStream k _ true
  · exact moves_presentKey (fun p _ => .header {} rfl) hrole

end Features

section Earned

variable {n : Node τ} (hn : n.WellFormed) (hbound : n.Bound)
  (hactive : ∀ k, (n.session k).trust = .trusted → (n.session k).tlsActive) (settings : Settings)
  {event : Event} {p : DomainPair} {k : SessionKey}

include hn hbound hactive

/-- What is earned is granted, whether the session is closing or not. -/
theorem Earns.trusts (h : Earns settings.workaround n p k (n.cause event)) :
    Trusts n (n.step (Chain.standard settings) event) p k := by
  generalize hcause : n.cause event = c at h
  cases h with
  | verdict _ stanza hkind htype hnamed hrequest =>
    obtain ⟨conn, rfl, hfind⟩ := exists_of_cause_eq_heard hcause
    obtain ⟨hk, -⟩ := hn.live conn k hfind
    let taken := n.takeIn k stanza.spelled p
    have hentry : (taken.registry.get? p).isSome := isSome_get?_takeIn n k _ p
    rw [step_receive_valid hn settings hfind hkind htype hnamed hrequest]
    refine (trusts_authenticate (n := taken.alter k (·.dropKeyRequest p.peer))
      (by simpa [taken] using hk) hentry).of_eq (fun j => ?_) (fun _ => rfl) rfl
    exact view_session_takeIn_alter n k _ p Session.trusted (fun _ => rfl) (fun _ => rfl)
      (f := (·.dropKeyRequest p.peer)) (fun _ => rfl) j
  | certificate _ stanza hfeatures hrole hcertified =>
    obtain ⟨conn, rfl, hfind⟩ := exists_of_cause_eq_heard hcause
    obtain ⟨hk, -⟩ := hn.live conn k hfind
    have hentry := (Registry.isSome_get?_ensure n.registry p p).mpr (Or.inl rfl)
    rw [step_receive_features settings hfind hfeatures hrole,
      receiveFeatures_of_certified hn.entries (hactive k) hcertified]
    refine (trusts_authenticate (n := (n.withEntry p).alter k (·.setMethod certificateMethod))
      (by simpa [withEntry] using hk) hentry).of_eq (fun j => ?_) (fun _ => rfl) rfl
    exact view_session_alter Session.trusted (f := (·.setMethod certificateMethod)) (fun _ => rfl)
      (n.withEntry p) k j
  | relayed r _ stanza id hkind htype hid hnamed hrequest htarget =>
    obtain ⟨conn, rfl, hfind⟩ := exists_of_cause_eq_heard hcause
    have hp := Directory.isCanonical_of_pairNamed? hnamed
    have hlink : k ∈ n.incomingKeys p := List.mem_of_find?_eq_some htarget
    have hk := lt_length_of_inbound (hbound.incoming p k hlink)
    have hrole := (hbound.peer_of_hasVerifyRequest hp hrequest).1
    let taken := n.takeIn r stanza.spelled p
    have hrequest' : (taken.session r).hasVerifyRequest p.peer id :=
      (hasVerifyRequest_takeIn n r _ p p.peer id r).trans hrequest
    have htarget' : taken.incomingByStream? p id = some k :=
      (incomingByStream?_takeIn hrole _ p id).trans htarget
    have hentry : (taken.registry.get? p).isSome := isSome_get?_takeIn n r _ p
    have htrusts : Trusts n (taken.relayVerdict r p stanza .valid) p k :=
      (trusts_relayVerdict hid hrequest' htarget' (by simpa [taken] using hk) hentry).of_eq
        (view_session_takeIn n r _ p Session.trusted (fun _ => rfl) (fun _ => rfl)) (fun _ => rfl)
        rfl
    rw [step_receive_answer hn settings hfind hkind htype hnamed, receiveVerifyReply]
    split
    · exact htrusts.of_eq (fun _ => rfl)
        (fun j => view_session_stop _ Session.trusted (fun _ => rfl) r j false)
        (registry_stop _ _ _)
    · exact htrusts

omit hbound hactive in
/-- A grant is earned by some session, or the event leads to nothing that a header would
not lead to. -/
theorem Grants.earned_or_unheard (h : Grants n p k (n.cause event)) :
    (∃ j, Earns settings.workaround n p j (n.cause event)) ∨
      Moves (.header k {}) n (n.step (Chain.standard settings) event) := by
  generalize hcause : n.cause event = c at h
  cases h with
  | verdict _ stanza hkind htype hnamed hrequest =>
    obtain ⟨text, htext, hvalid⟩ := Option.map_eq_some_iff.mp htype
    rw [Verdict.parse_eq_valid hvalid] at htext
    exact Or.inl ⟨k, .verdict k stanza hkind htext hnamed hrequest⟩
  | relayed r _ stanza id hkind htype hid hnamed hrequest hlink hstream =>
    obtain ⟨text, htext, hvalid⟩ := Option.map_eq_some_iff.mp htype
    rw [Verdict.parse_eq_valid hvalid] at htext
    have htarget : (n.incomingByStream? p id).isSome :=
      List.find?_isSome.mpr ⟨k, hlink, by simp [hstream]⟩
    obtain ⟨j, hj⟩ := Option.isSome_iff_exists.mp htarget
    exact Or.inl ⟨j, .relayed r j stanza id hkind htext hid hnamed hrequest hj⟩
  | certificate _ stanza pair hkind hrole hpair hcheck htrusted =>
    obtain ⟨conn, rfl, hfind⟩ := exists_of_cause_eq_heard hcause
    rw [step_receive_other settings hfind hkind]
    split
    · exact Or.inr (.single (.stop k false))
    · split
      · rename_i hfeatures
        by_cases hcertified : ∃ q, n.Certified settings.workaround k stanza q
        · obtain ⟨q, hq⟩ := hcertified
          obtain ⟨pair', hpair', hcheck'⟩ := hq.pair
          have hsame : q = p := by
            have hpairs : pair' = pair := by simpa [hpair] using hpair'.symm
            rw [hpairs, hcheck] at hcheck'
            exact (Except.ok.inj hcheck').symm
          exact Or.inl ⟨k, .certificate k stanza hfeatures.2 hrole (hsame ▸ hq)⟩
        · exact Or.inr (moves_of_not_certified hn.entries hrole (not_exists.mp hcertified))
      · exact Or.inr .refl

theorem isTrustedFor_step_iff :
    ((n.step (Chain.standard settings) event).session k).isTrustedFor p ↔
      (n.session k).isTrustedFor p ∨ Earns settings.workaround n p k (n.cause event) := by
  have hmoves := step_moves hn settings event
  constructor
  · intro hnew
    rcases hmoves.isTrustedFor hn hbound hnew with hold | hgrants
    · exact Or.inl hold
    · rcases hgrants.earned_or_unheard hn settings with ⟨j, hearns⟩ | hunheard
      · rcases ((hearns.trusts hn hbound hactive settings).sessions k p).mp hnew with
          hold | ⟨hj, -⟩
        · exact Or.inl hold
        · exact Or.inr (hj ▸ hearns)
      · exact Or.inl (hunheard.isTrustedFor_of_unheard (fun _ _ => Cause.noConfusion) hnew)
  · rintro (hold | hearns)
    · exact hmoves.isTrustedFor_of_isTrustedFor hold
    · exact ((hearns.trusts hn hbound hactive settings).sessions k p).mpr (Or.inr ⟨rfl, rfl⟩)

theorem isAuthenticated_step_iff (hnot : ¬ n.registry.isAuthenticated p) :
    (n.step (Chain.standard settings) event).registry.isAuthenticated p ↔
      ∃ k, Earns settings.workaround n p k (n.cause event) := by
  constructor
  · intro hnew
    rcases (step_moves hn settings event).isAuthenticated hn hbound hnew with hold | ⟨k, hgrants⟩
    · exact absurd hold hnot
    · rcases hgrants.earned_or_unheard hn settings with hearned | hunheard
      · exact hearned
      · exact absurd (hunheard.isAuthenticated_of_unheard (fun _ _ => Cause.noConfusion) hnew) hnot
  · rintro ⟨k, hearns⟩
    exact (hearns.trusts hn hbound hactive settings).pair

end Earned

/-- A session that is being torn down stays so. -/
theorem Change.isClosing {n m : Node τ} {c : Cause} {k : SessionKey} {s : Session}
    (h : Change n m c k s) (hclosing : (n.session k).isClosing) : s.isClosing := by
  cases h with
  | remark f hremark =>
    cases hremark with
    | phase phase =>
      exact (Session.view_setPhase Session.isClosing (fun _ _ => rfl) phase _).trans hclosing
    | _ => exact hclosing
  | closing | closed => rfl
  | accepted conn address hk | opened conn p relayFor hk =>
    rw [session_of_length_le (Nat.le_of_eq hk.symm)] at hclosing
    cases hclosing
  | granted base p hgrants hbase =>
    generalize n.session k = t at hbase hclosing
    rcases hbase with rfl | rfl | ⟨id, rfl⟩ <;> exact hclosing
  | _ =>
    generalize n.session k = t at hclosing ⊢
    exact hclosing

theorem Moves.isClosing {n m : Node τ} {c : Cause} (h : Moves c n m) {k : SessionKey}
    (hclosing : (n.session k).isClosing) : (m.session k).isClosing :=
  h.kept (P := fun n => (n.session k).isClosing) (fun hmove hn => (hmove.change k).isClosing hn)
    hclosing

theorem route?_ne_of_isClosing {n : Node τ} {k : SessionKey} (h : (n.session k).isClosing)
    (p : DomainPair) : n.route? p ≠ some k := by
  intro hroute
  obtain ⟨-, -, -, hopen⟩ := of_route? hroute
  simp [isOpen, h] at hopen

end Node

namespace Setup

variable {τ : Type} [Transport τ] (setup : Setup τ)

section Event

variable (past : List (Occurrence τ)) (event : Event) {p : DomainPair} {k : SessionKey}

theorem isTrustedFor_event_iff :
    ((setup.after (past ++ [.event event])).session k).isTrustedFor p ↔
      ((setup.after past).session k).isTrustedFor p ∨
        Node.Earns setup.settings.workaround (setup.after past) p k
          ((setup.after past).cause event) := by
  rw [after_snoc]
  exact Node.isTrustedFor_step_iff (setup.wellFormed_after past) (setup.bound_after past)
    (setup.tlsActive_of_trusted past) setup.settings

theorem isAuthenticated_event_iff (hnot : ¬ (setup.after past).registry.isAuthenticated p) :
    (setup.after (past ++ [.event event])).registry.isAuthenticated p ↔
      ∃ k, Node.Earns setup.settings.workaround (setup.after past) p k
        ((setup.after past).cause event) := by
  rw [after_snoc]
  exact Node.isAuthenticated_step_iff (setup.wellFormed_after past) (setup.bound_after past)
    (setup.tlsActive_of_trusted past) setup.settings hnot

theorem isAuthenticated_of_earns
    (hearns : Node.Earns setup.settings.workaround (setup.after past) p k
      ((setup.after past).cause event)) :
    (setup.after (past ++ [.event event])).registry.isAuthenticated p := by
  rw [after_snoc]
  exact (hearns.trusts (setup.wellFormed_after past) (setup.bound_after past)
    (setup.tlsActive_of_trusted past) setup.settings).pair

end Event

/-- What a session is trusted for it earned at some event. -/
theorem exists_earns_of_isTrustedFor {past : List (Occurrence τ)} {k : SessionKey} {p : DomainPair}
    (h : ((setup.after past).session k).isTrustedFor p) :
    ∃ before event rest, past = before ++ .event event :: rest ∧
      Node.Earns setup.settings.workaround (setup.after before) p k
        ((setup.after before).cause event) := by
  obtain ⟨before, event, rest, heq, hnot, hnew, -⟩ := setup.exists_granting h
  rcases (setup.isTrustedFor_event_iff before event).mp hnew with hold | hearns
  · exact absurd hold hnot
  · exact ⟨before, event, rest, heq, hearns⟩

/-- A session that is being torn down becomes trusted for just the pairs that it earns, as any other
session does, and a pair that is not trusted becomes so just if some session earns it. But it stays
closing, and so the traffic of no pair goes over it. -/
theorem closing_session_earns_trust {past : List (Occurrence τ)} {s : SessionKey}
    (hclosing : ((setup.after past).session s).isClosing) (event : Event) :
    let n := setup.after past
    let m := setup.after (past ++ [.event event])
    (m.session s).isClosing ∧ (∀ p, m.route? p ≠ some s) ∧
    ∀ p, ((m.session s).isTrustedFor p ↔ (n.session s).isTrustedFor p ∨
        Node.Earns setup.settings.workaround n p s (n.cause event)) ∧
      (¬ n.registry.isAuthenticated p → (m.registry.isAuthenticated p ↔
        ∃ k, Node.Earns setup.settings.workaround n p k (n.cause event))) := by
  intro n m
  have hstays : (m.session s).isClosing := by
    rw [show m = n.step setup.chain event from setup.after_snoc past _]
    exact (setup.moves_event past event).isClosing hclosing
  refine ⟨hstays, Node.route?_ne_of_isClosing hstays, fun p => ⟨?_, ?_⟩⟩
  · exact setup.isTrustedFor_event_iff past event
  · exact setup.isAuthenticated_event_iff past event

/-- The peer finds our key invalid, and then valid. -/
theorem closing_session_earns_trust_of_invalid_then_valid :
    let p : DomainPair := ⟨"b.example", "a.example"⟩
    let past := keySent p ++ [.event (.receive ⟨1000⟩
      (Stanza.resultReply "a.example" "b.example" .invalid none))]
    let valid : Event := .receive ⟨1000⟩ (Stanza.resultReply "a.example" "b.example" .valid none)
    ((served.after past).session 0).isClosing ∧ ¬ ((served.after past).session 0).isTrustedFor p ∧
      ¬ (served.after past).registry.isAuthenticated p ∧
      ((served.after (past ++ [.event valid])).session 0).isTrustedFor p ∧
      (served.after (past ++ [.event valid])).registry.isAuthenticated p := by
  intro p past valid
  have hrun : ((served.after past).session 0).isClosing ∧
      ¬ ((served.after past).session 0).isTrustedFor p ∧
      ¬ (served.after past).registry.isAuthenticated p ∧
      (served.after past).find? ⟨1000⟩ = some 0 ∧
      ((served.after past).session 0).hasKeyRequest p.peer := by
    rw [after_eq_foldl]
    decide +kernel
  obtain ⟨hclosing, hnot, hunauthenticated, hfind, hrequest⟩ := hrun
  have hcause : (served.after past).cause valid =
      .heard 0 (Stanza.resultReply "a.example" "b.example" .valid none) := by
    simp only [Node.cause, valid, hfind]
  have hnamed : (served.after past).directory.pairNamed?
      (Stanza.resultReply "a.example" "b.example" .valid none) = some p := by
    rw [served.directory_after]
    decide +kernel
  have hearns : Node.Earns served.settings.workaround (served.after past) p 0
      ((served.after past).cause valid) := by
    rw [hcause]
    exact .verdict 0 _ (Stanza.of?_resultReply _ _ _ _) (Stanza.type_resultReply _ _ _ _) hnamed
      hrequest
  obtain ⟨-, -, hexact⟩ := served.closing_session_earns_trust hclosing valid
  exact ⟨hclosing, hnot, hunauthenticated, (hexact p).1.mpr (Or.inr hearns),
    ((hexact p).2 hunauthenticated).mpr ⟨0, hearns⟩⟩

end Setup

end Federation
