import Federation.Proofs.Node.Change
import Federation.Proofs.Stanza.Dialback

/-!
What a node writes on a connection. Everything in a batch has waited in the queue of a session, or
is a key that is presented, or an answer to what was heard, or the traffic of a caller. Only
questions about keys are queued.
-/

namespace Federation

namespace Node

variable {τ : Type} [Transport τ]

inductive Says (n : Node τ) (k : SessionKey) (c : Cause) : Element → Prop
  | waiting (e : Element) (h : e ∈ (n.session k).waiting) (hmay : MayFlush n k c) : Says n k c e
  | key (p : DomainPair) (id secret : String) (hmay : MayPresent n k p c)
      (hrole : (n.session k).role = .outbound) (hpair : (n.session k).pair = some p)
      (hid : (n.session k).peerStreamId = some id)
      (hsecret : n.directory.secretFor p.own = .ok secret)
      (hrelay : (n.session k).isRelay = false) :
      Says n k c (Stanza.key p.own p.peer (Key.derive p.own p.peer secret id))
  | utterance (e : Element) (h : Utterance n k c e) : Says n k c e

theorem send_of_no_route {n : Node τ} {p : DomainPair} (hroute : n.route? p = none)
    (stanza : Element) : n.send p stanza = (.error (.notAuthenticated p), n) := by
  simp only [send, hroute]

/-- Traffic that finds a way is offered to the transport once. -/
theorem log_send {n : Node τ} {p : DomainPair} {k : SessionKey} (hroute : n.route? p = some k)
    (stanza : Element) : ∃ accepted,
      (n.send p stanza).2.log = n.log ++ [.write (n.session k).conn [stanza] accepted] := by
  obtain ⟨accepted, hlog⟩ := log_write n (n.session k).conn [stanza]
  refine ⟨accepted, ?_⟩
  simp only [send, hroute]
  exact hlog

/-- A write that is new after traffic was sent is the one of the traffic. -/
theorem log_send_of_mem {n : Node τ} {p : DomainPair} {stanza : Element} {conn : ConnId}
    {batch : List Element} {accepted : Bool} (hnot : Effect.write conn batch accepted ∉ n.log)
    (hnew : Effect.write conn batch accepted ∈ (n.send p stanza).2.log) :
    (n.send p stanza).2.log = n.log ++ [.write conn [stanza] accepted] := by
  cases hroute : n.route? p with
  | none =>
    rw [send_of_no_route hroute] at hnew
    exact absurd hnew hnot
  | some k =>
    obtain ⟨accepted', hlog⟩ := log_send hroute stanza
    rw [hlog] at hnew ⊢
    rcases List.mem_append.mp hnew with hold | hlast
    · exact absurd hold hnot
    · cases List.mem_singleton.mp hlast
      rfl

/-- Past its queue a node puts no question and presents no key, unless a caller sends one. -/
theorem Utterance.exists_send {n : Node τ} {k : SessionKey} {c : Cause} {e : Element}
    (h : Utterance n k c e) (hkind : (DialbackKind.of? e).isSome) (htype : e.attr? "type" = none) :
    ∃ pair, c = .call (.send pair e) ∧ n.route? pair = some k := by
  cases h with
  | complaint _ condition => simp [Stanza.of?_streamError] at hkind
  | refusal _ heard pair condition => simp [Stanza.type_resultReply] at htype
  | answer => simp [Stanza.type_verifyReply] at htype
  | verdict => simp [Stanza.type_resultReply] at htype
  | traffic _ pair _ hroute => exact ⟨pair, rfl, hroute⟩

theorem Move.exists_added {n m : Node τ} {c : Cause} (h : Move c n m) :
    ∃ added, m.log = n.log ++ added ∧ ∀ conn batch accepted,
      Effect.write conn batch accepted ∈ added →
      ∃ k, (n.session k).conn = conn ∧ ∀ e ∈ batch, Says n k c e := by
  have hnone : ∀ {m' : Node τ}, m'.log = n.log → ∃ added, m'.log = n.log ++ added ∧
      ∀ conn batch accepted, Effect.write conn batch accepted ∈ added →
      ∃ k, (n.session k).conn = conn ∧ ∀ e ∈ batch, Says n k c e := by
    intro m' hlog
    refine ⟨[], by rw [hlog, List.append_nil], ?_⟩
    intro conn batch accepted hw
    cases hw
  have hother : ∀ {m' : Node τ} {effect : Effect}, m'.log = n.log ++ [effect] →
      (∀ conn batch accepted, effect ≠ .write conn batch accepted) →
      ∃ added, m'.log = n.log ++ added ∧ ∀ conn batch accepted,
      Effect.write conn batch accepted ∈ added →
      ∃ k, (n.session k).conn = conn ∧ ∀ e ∈ batch, Says n k c e := by
    intro m' effect hlog hne
    refine ⟨[effect], hlog, ?_⟩
    intro conn batch accepted hw
    exact absurd (List.mem_singleton.mp hw).symm (hne conn batch accepted)
  have hwrite : ∀ {m' : Node τ} (k : SessionKey) {batch : List Element} {accepted : Bool},
      m'.log = n.log ++ [.write (n.session k).conn batch accepted] →
      (∀ e ∈ batch, Says n k c e) →
      ∃ added, m'.log = n.log ++ added ∧ ∀ conn batch accepted,
      Effect.write conn batch accepted ∈ added →
      ∃ k, (n.session k).conn = conn ∧ ∀ e ∈ batch, Says n k c e := by
    intro m' k batch accepted hlog hsays
    refine ⟨_, hlog, ?_⟩
    intro conn batch' accepted' hw
    cases List.mem_singleton.mp hw
    exact ⟨k, rfl, hsays⟩
  cases h with
  | offerKey k p id secret hmay hrole hpair hrelay hid hsecret =>
    obtain ⟨_, hlog⟩ :=
      log_offerKey (lt_length_of_pair hpair) p (Key.derive p.own p.peer secret id)
    refine hwrite k hlog ?_
    intro e he
    rcases List.mem_append.mp he with hold | hnew
    · exact .waiting e hold (Or.inl (by rw [hid]; rfl))
    · rw [List.mem_singleton.mp hnew]
      exact .key p id secret hmay hrole hpair hid hsecret hrelay
  | flush k hmay =>
    rcases log_flush n k with hlog | ⟨_, hlog⟩
    · exact hnone hlog
    · exact hwrite k hlog fun e he => .waiting e he hmay
  | say k stanza hutterance =>
    obtain ⟨_, hlog⟩ := log_write n (n.session k).conn [stanza]
    refine hwrite k hlog ?_
    intro e he
    rw [List.mem_singleton.mp he]
    exact .utterance stanza hutterance
  | stop k force =>
    unfold Node.stop
    split
    · exact hnone rfl
    · exact hother rfl (fun _ _ _ => Effect.noConfusion)
  | grantVerdict | grantCertificate | grantRelayed => exact hnone (log_trust _ _ _)
  | refuse p relayFor e hopens hconn =>
    exact hother (log_connect n p) (fun _ _ _ => Effect.noConfusion)
  | establish p relayFor conn hopens hentry hconn =>
    have hlog : ((n.connect p).2.establish p relayFor conn).log = (n.connect p).2.log := rfl
    exact hother (hlog.trans (log_connect n p)) (fun _ _ _ => Effect.noConfusion)
  | close conn k hfind =>
    refine hnone ?_
    simp only [connectionClosed, hfind]
    rfl
  | arm timeout k => exact hother rfl (fun _ _ _ => Effect.noConfusion)
  | _ => exact hnone rfl

theorem Moves.exists_added {n m : Node τ} {c : Cause} (h : Moves c n m) :
    ∃ added, m.log = n.log ++ added ∧ ∀ conn batch accepted,
      Effect.write conn batch accepted ∈ added →
      ∃ n' k, Moves c n n' ∧ Moves c n' m ∧ (n'.session k).conn = conn ∧
        ∀ e ∈ batch, Says n' k c e := by
  induction h with
  | refl => exact ⟨[], (List.append_nil _).symm, fun _ _ _ hw => by cases hw⟩
  | tail hmoves hmove ih =>
    rename_i b d
    obtain ⟨before, hbefore, hold⟩ := ih
    obtain ⟨added, hadded, hnew⟩ := hmove.exists_added
    refine ⟨before ++ added, by rw [hadded, hbefore, List.append_assoc], ?_⟩
    intro conn batch accepted hw
    rcases List.mem_append.mp hw with hw | hw
    · obtain ⟨n', k, hbefore, hafter, hconn, hsays⟩ := hold conn batch accepted hw
      exact ⟨n', k, hbefore, hafter.tail hmove, hconn, hsays⟩
    · obtain ⟨k, hconn, hsays⟩ := hnew conn batch accepted hw
      exact ⟨b, k, hmoves, .single hmove, hconn, hsays⟩

theorem Change.mem_waiting {n m : Node τ} {c : Cause} {k : SessionKey} {s : Session}
    (h : Change n m c k s) {e : Element} (he : e ∈ s.waiting) :
    e ∈ (n.session k).waiting ∨ ∃ p id key, Asks n p id key c ∧ Carries n p k ∧
      e = Stanza.verifyRequest p.own p.peer id key := by
  cases h with
  | remark f hremark =>
    rw [(hremark.ledger_eq _).2.2.2] at he
    exact Or.inl he
  | requestQueued p id key hasks hcarries =>
    rcases List.mem_append.mp he with hold | hnew
    · exact Or.inl hold
    · exact Or.inr ⟨p, id, key, hasks, hcarries, List.mem_singleton.mp hnew⟩
  | granted base p hgrants hbase =>
    rw [(Session.granted_of_eq hbase).waiting] at he
    exact Or.inl he
  | written | closed | keyOffered | accepted | opened => cases he
  | _ => exact Or.inl he

end Node

end Federation
