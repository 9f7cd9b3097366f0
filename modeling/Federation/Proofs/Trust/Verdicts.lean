import Federation.Proofs.Trust.KeyAgreement
import Federation.Proofs.Trust.SingleUse

/-!
What a peer is told about its key and what is recorded of it. The answer of the authoritative server
is heard on a connection that we opened, and the peer waits on another one. It is told that its key
is valid just if its session becomes trusted.
-/

namespace Federation

theorem Verdict.parse_eq_valid_iff (text : String) :
    Verdict.parse text = .valid ↔ text = "valid" := by
  constructor
  · exact Verdict.parse_eq_valid
  · rintro rfl
    rfl

/-- Nothing is offered on a connection if no element is in a batch for it. -/
theorem Effect.offeredOn_eq_nil {conn : ConnId} {effects : List Effect}
    (h : ∀ e, ¬ ∃ batch accepted, Effect.write conn batch accepted ∈ effects ∧ e ∈ batch) :
    Effect.offeredOn conn effects = [] := by
  rw [List.eq_nil_iff_forall_not_mem]
  intro e he
  exact h e (mem_offeredOn he)

namespace Node

variable {τ : Type}

def QueuesOutbound (n : Node τ) : Prop :=
  ∀ k, (n.session k).role = .inbound → (n.session k).waiting = []

variable [Transport τ]

/-- A question is queued only on a connection that we opened. -/
theorem Move.queuesOutbound {n m : Node τ} {c : Cause} (h : Move c n m) (hn : n.Bound)
    (hqueues : n.QueuesOutbound) : m.QueuesOutbound := by
  intro k hrole
  rw [List.eq_nil_iff_forall_not_mem]
  intro e he
  rcases (h.change k).mem_waiting he with hold | ⟨p, _, _, -, hcarries, -⟩
  · have hk : k < n.sessions.length := by
      by_contra hge
      rw [session_of_length_le (Nat.not_lt.mp hge)] at hold
      cases hold
    rw [Session.role_eq (h.identity_eq hk)] at hrole
    rw [hqueues k hrole] at hold
    cases hold
  · obtain ⟨houtbound, pair, hpair, -⟩ := hcarries.peer hn
    rw [Session.role_eq (h.identity_eq (lt_length_of_pair hpair)), houtbound] at hrole
    cases hrole

section Relay

variable {n : Node τ} {r s : SessionKey} {p : DomainPair} {stanza : Element} {id : String}
  {verdict : Verdict}

def takeBack (n : Node τ) (r : SessionKey) (p : DomainPair) (id : String) : Node τ :=
  n.alter r (·.dropVerifyRequest p.peer id)

omit [Transport τ] in
theorem view_session_takeBack {α : Type} (n : Node τ) (r : SessionKey) (p : DomainPair)
    (id : String) (view : Session → α)
    (hview : ∀ s, view (s.dropVerifyRequest p.peer id) = view s) (j : SessionKey) :
    view ((n.takeBack r p id).session j) = view (n.session j) :=
  view_session_alter view (f := (·.dropVerifyRequest p.peer id)) hview n r j

omit [Transport τ] in
theorem keepsTrust_takeBack (n : Node τ) (r : SessionKey) (p : DomainPair) (id : String) :
    KeepsTrust n (n.takeBack r p id) where
  pairs := fun _ => rfl
  sessions := view_session_takeBack n r p id Session.trusted fun _ => rfl
  flags := view_session_takeBack n r p id Session.isAuthenticated fun _ => rfl

/-- Where nobody waits for the answer, the request is taken back and that is all. -/
theorem relayVerdict_eq_takeBack (hid : stanza.attr? "id" = some id)
    (hrequest : (n.session r).hasVerifyRequest p.peer id)
    (htarget : n.incomingByStream? p id = none) :
    n.relayVerdict r p stanza verdict = n.takeBack r p id := by
  have htarget' : (n.alter r (·.dropVerifyRequest p.peer id)).incomingByStream? p id = none :=
    (incomingByStream?_alter n r (f := (·.dropVerifyRequest p.peer id)) (fun _ => rfl) p id).trans
      htarget
  simp only [relayVerdict, hid, hrequest, Bool.not_true, Bool.false_eq_true, if_false,
    authenticateByStream, htarget', ite_self]
  rfl

theorem relayVerdict_eq_reply (hid : stanza.attr? "id" = some id)
    (hrequest : (n.session r).hasVerifyRequest p.peer id)
    (htarget : n.incomingByStream? p id = some s) :
    n.relayVerdict r p stanza verdict =
      (if verdict = .valid then (n.takeBack r p id).authenticate p s else n.takeBack r p id).reply s
        (Stanza.resultReply p.own p.peer (.ofBool (decide (verdict = .valid))) none) := by
  have htarget' : (n.alter r (·.dropVerifyRequest p.peer id)).incomingByStream? p id = some s :=
    (incomingByStream?_alter n r (f := (·.dropVerifyRequest p.peer id)) (fun _ => rfl) p id).trans
      htarget
  simp only [relayVerdict, hid, hrequest, Bool.not_true, Bool.false_eq_true, if_false,
    authenticateByStream, htarget', decide_eq_true_eq]
  by_cases hvalid : verdict = .valid
  · simp only [if_pos hvalid]
    rfl
  · simp only [if_neg hvalid]
    rfl

/-- Where nothing waits, nothing is offered when a pair becomes trusted. -/
theorem exists_log_authenticate (hown : n.HasOwnConn s) (hempty : (n.session s).waiting = [])
    (p : DomainPair) (k : SessionKey) :
    ∃ added, (n.authenticate p k).log = n.log ++ added ∧
      Effect.offeredOn (n.session s).conn added = [] := by
  have hconn := view_session_trust n p k Session.conn (fun _ => rfl) (fun _ => rfl) s
  have hown' : (n.trust p k).HasOwnConn s :=
    hown.of_eq (length_sessions_trust n p k) fun i =>
      view_session_trust n p k Session.conn (fun _ => rfl) (fun _ => rfl) i
  obtain ⟨added, hlog, hwritten⟩ := (flushes_flushPair hown' p).log
  rw [hconn, view_session_trust n p k Session.waiting (fun _ => rfl) (fun _ => rfl) s, hempty]
    at hwritten
  refine ⟨added, by rw [authenticate, hlog, log_trust], Effect.offeredOn_eq_nil fun e he => ?_⟩
  exact List.not_mem_nil ((hwritten e).mp he).2

/-- The peer that waits for the answer is told once. -/
theorem exists_log_relayVerdict (verdict : Verdict) (hid : stanza.attr? "id" = some id)
    (hrequest : (n.session r).hasVerifyRequest p.peer id)
    (htarget : n.incomingByStream? p id = some s) (hown : n.HasOwnConn s)
    (hempty : (n.session s).waiting = []) :
    ∃ added, (n.relayVerdict r p stanza verdict).log = n.log ++ added ∧
      Effect.offeredOn (n.session s).conn added =
        [Stanza.resultReply p.own p.peer (.ofBool (decide (verdict = .valid))) none] := by
  generalize hreply : Stanza.resultReply p.own p.peer (.ofBool (decide (verdict = .valid))) none =
    answer
  have hconn := view_session_takeBack n r p id Session.conn (fun _ => rfl)
  rw [relayVerdict_eq_reply hid hrequest htarget, hreply]
  by_cases hvalid : verdict = .valid
  · rw [if_pos hvalid]
    have hempty' := (view_session_takeBack n r p id Session.waiting (fun _ => rfl) s).trans hempty
    obtain ⟨flushed, hflushed, hnone⟩ := exists_log_authenticate (n := n.takeBack r p id) (s := s)
      (hown.of_eq (by simp [takeBack]) hconn) hempty' p s
    obtain ⟨accepted, hlog, -⟩ := ((n.takeBack r p id).authenticate p s).exists_log_reply s answer
    rw [view_session_authenticate Session.conn (fun _ => rfl) (fun _ => rfl) (fun _ => rfl), hconn,
      hflushed] at hlog
    rw [hconn] at hnone
    refine ⟨flushed ++ [.write (n.session s).conn [answer] accepted], ?_, ?_⟩
    · rw [hlog, List.append_assoc]
      rfl
    · rw [Effect.offeredOn_append, hnone, List.nil_append]
      simp [Effect.offeredOn]
  · rw [if_neg hvalid]
    obtain ⟨accepted, hlog, -⟩ := (n.takeBack r p id).exists_log_reply s answer
    rw [hconn] at hlog
    exact ⟨_, hlog, by simp [Effect.offeredOn]⟩

end Relay

/-- A relay is closed after its answer, which neither writes nor concerns trust. -/
theorem receiveVerifyReply_keeps (n : Node τ) (r : SessionKey) (p : DomainPair) (stanza : Element)
    (verdict : Verdict) :
    KeepsTrust (n.relayVerdict r p stanza verdict) (n.receiveVerifyReply r p stanza verdict) ∧
      ∃ more, (n.receiveVerifyReply r p stanza verdict).log =
          (n.relayVerdict r p stanza verdict).log ++ more ∧
        ∀ conn batch accepted, Effect.write conn batch accepted ∉ more := by
  simp only [receiveVerifyReply]
  split
  · refine ⟨⟨fun q => ?_, fun j => ?_, fun j => ?_⟩, log_stop _ r false⟩
    · rw [registry_stop]
    · exact view_session_stop _ Session.trusted (fun _ => rfl) r j false
    · exact view_session_stop _ Session.isAuthenticated (fun _ => rfl) r j false
  · exact ⟨⟨fun _ => rfl, fun _ => rfl, fun _ => rfl⟩, [], (List.append_nil _).symm,
      fun _ _ _ => List.not_mem_nil⟩

omit [Transport τ] in
/-- To take an answer in changes neither the request nor who waits for the answer. -/
theorem takeIn_keeps_relay {n : Node τ} (hbound : n.Bound) {r : SessionKey} {p : DomainPair}
    (hp : p.IsCanonical n.directory.isServed) {id : String}
    (hrequest : (n.session r).hasVerifyRequest p.peer id) (spelled : DomainPair) :
    ((n.takeIn r spelled p).session r).hasVerifyRequest p.peer id ∧
      (n.takeIn r spelled p).incomingByStream? p id = n.incomingByStream? p id := by
  refine ⟨?_, incomingByStream?_takeIn (hbound.peer_of_hasVerifyRequest hp hrequest).1 _ p id⟩
  exact (hasVerifyRequest_takeIn n r spelled p p.peer id r).trans hrequest

section Answer

variable {n : Node τ} (hn : n.WellFormed) (hbound : n.Bound) (settings : Settings) {conn : ConnId}
  {r : SessionKey} (hfind : n.find? conn = some r) {stanza : Element} {text id : String}
  {p : DomainPair} (hkind : DialbackKind.of? stanza = some .verify)
  (htype : stanza.attr? "type" = some text) (hid : stanza.attr? "id" = some id)
  (hnamed : n.directory.pairNamed? stanza = some p)
  (hrequest : (n.session r).hasVerifyRequest p.peer id)

include hn hfind hkind htype hnamed

theorem step_receive_verdict :
    n.step (Chain.standard settings) (.receive conn stanza) =
      (n.takeIn r stanza.spelled p).receiveVerifyReply r p stanza (.parse text) := by
  rw [step_receive_dialback hn settings hfind hkind hnamed]
  simp only [dispatchDialback, htype, Option.map_some]

include hbound hid hrequest

/-- The peer that waits is told once, and by whether the answer found its key valid. -/
theorem exists_log_of_answer {s : SessionKey} (htarget : n.incomingByStream? p id = some s)
    (hown : n.HasOwnConn s) (hempty : (n.session s).waiting = []) :
    ∃ added, (n.step (Chain.standard settings) (.receive conn stanza)).log = n.log ++ added ∧
      Effect.offeredOn (n.session s).conn added =
        [Stanza.resultReply p.own p.peer (.ofBool (decide (text = "valid"))) none] := by
  have hp := Directory.isCanonical_of_pairNamed? hnamed
  obtain ⟨hrequest', htarget'⟩ := takeIn_keeps_relay hbound hp hrequest stanza.spelled
  have hconn := view_session_takeIn n r stanza.spelled p Session.conn (fun _ => rfl) fun _ => rfl
  have hempty' := (view_session_takeIn n r stanza.spelled p Session.waiting (fun _ => rfl)
    (fun _ => rfl) s).trans hempty
  obtain ⟨told, htold, hoffered⟩ := exists_log_relayVerdict (.parse text) hid hrequest'
    (htarget'.trans htarget) (hown.of_eq (by simp) hconn) hempty'
  obtain ⟨-, more, hmore, hnone⟩ :=
    (n.takeIn r stanza.spelled p).receiveVerifyReply_keeps r p stanza (.parse text)
  rw [hconn, decide_eq_decide.mpr (Verdict.parse_eq_valid_iff text)] at hoffered
  rw [step_receive_verdict hn settings hfind hkind htype hnamed]
  refine ⟨told ++ more, ?_, ?_⟩
  · rw [hmore, htold, log_takeIn, List.append_assoc]
  · rw [Effect.offeredOn_append, hoffered, Effect.offeredOn_eq_nil fun e he => ?_,
      List.append_nil]
    obtain ⟨batch, accepted, hwrite, -⟩ := he
    exact hnone _ _ _ hwrite

/-- Where nobody waits, nothing is written. -/
theorem exists_log_of_no_target (htarget : n.incomingByStream? p id = none) :
    ∃ added, (n.step (Chain.standard settings) (.receive conn stanza)).log = n.log ++ added ∧
      ∀ other batch accepted, Effect.write other batch accepted ∉ added := by
  have hp := Directory.isCanonical_of_pairNamed? hnamed
  obtain ⟨hrequest', htarget'⟩ := takeIn_keeps_relay hbound hp hrequest stanza.spelled
  obtain ⟨-, more, hmore, hnone⟩ :=
    (n.takeIn r stanza.spelled p).receiveVerifyReply_keeps r p stanza (.parse text)
  rw [relayVerdict_eq_takeBack hid hrequest' (htarget'.trans htarget)] at hmore
  rw [step_receive_verdict hn settings hfind hkind htype hnamed]
  exact ⟨more, hmore.trans (congrArg (· ++ more) (log_takeIn n r _ p)), hnone⟩

/-- Trust changes only by an answer that finds a key valid, and for somebody who waits for it. -/
theorem keepsTrust_of_answer (h : text ≠ "valid" ∨ n.incomingByStream? p id = none) :
    KeepsTrust n (n.step (Chain.standard settings) (.receive conn stanza)) := by
  let taken := n.takeIn r stanza.spelled p
  have hp := Directory.isCanonical_of_pairNamed? hnamed
  obtain ⟨hrequest', htarget'⟩ := takeIn_keeps_relay hbound hp hrequest stanza.spelled
  have hrelayed : KeepsTrust taken (taken.relayVerdict r p stanza (.parse text)) := by
    cases htarget : n.incomingByStream? p id with
    | none =>
      rw [relayVerdict_eq_takeBack hid hrequest' (htarget'.trans htarget)]
      exact keepsTrust_takeBack taken r p id
    | some s =>
      have hinvalid : Verdict.parse text ≠ .valid := by
        rw [ne_eq, Verdict.parse_eq_valid_iff]
        rw [htarget] at h
        simpa using h
      rw [relayVerdict_eq_reply hid hrequest' (htarget'.trans htarget), if_neg hinvalid]
      exact (keepsTrust_takeBack taken r p id).trans (keepsTrust_reply _ s _)
  rw [step_receive_verdict hn settings hfind hkind htype hnamed]
  exact ((keepsTrust_takeIn n r _ p).trans hrelayed).trans
    (taken.receiveVerifyReply_keeps r p stanza (.parse text)).1

omit hrequest in
/-- Something is written only if we asked and somebody waits. -/
theorem exists_target_of_write {other : ConnId} {batch : List Element} {accepted : Bool}
    (hin : Effect.write other batch accepted ∈
      (n.step (Chain.standard settings) (.receive conn stanza)).log)
    (hnot : Effect.write other batch accepted ∉ n.log) :
    (n.session r).hasVerifyRequest p.peer id ∧ ∃ s, n.incomingByStream? p id = some s := by
  by_cases hrequest : (n.session r).hasVerifyRequest p.peer id
  · refine ⟨hrequest, ?_⟩
    cases htarget : n.incomingByStream? p id with
    | some s => exact ⟨s, rfl⟩
    | none =>
      obtain ⟨added, hlog, hnone⟩ := exists_log_of_no_target hn hbound settings hfind hkind htype
        hid hnamed hrequest htarget
      rw [hlog, List.mem_append] at hin
      exact absurd hin (not_or.mpr ⟨hnot, hnone _ _ _⟩)
  · have hignored := ignores_of_no_verify_request hn settings hfind hnamed hkind htype
      fun other hother => Option.some.inj (hid.symm.trans hother) ▸ hrequest
    rcases hignored.log with hlog | ⟨-, hlog⟩
    · exact absurd (hlog ▸ hin) hnot
    · rw [hlog] at hin
      rcases List.mem_append.mp hin with hold | hnew
      · exact absurd hold hnot
      · cases List.mem_singleton.mp hnew

end Answer

omit [Transport τ] in
/-- Where no two streams have the same id, the link on which a peer announced a stream is
found by it. -/
theorem incomingByStream?_of_mem {n : Node τ} (hbound : n.Bound)
    (hids : (n.sessions.map (·.streamId)).Nodup) {p : DomainPair} {s : SessionKey} {id : String}
    (hlink : s ∈ n.incomingKeys p) (hstream : (n.session s).streamId = id) :
    n.incomingByStream? p id = some s := by
  have hsome : (n.incomingByStream? p id).isSome :=
    List.find?_isSome.mpr ⟨s, hlink, by simp [hstream]⟩
  obtain ⟨t, ht⟩ := Option.isSome_iff_exists.mp hsome
  have hsame : (n.session t).streamId = (n.session s).streamId := by
    rw [hstream]
    simpa using List.find?_some ht
  have htlink := List.mem_of_find?_eq_some ht
  rw [ht, eq_of_nodup hids (lt_length_of_inbound (hbound.incoming p t htlink))
    (lt_length_of_inbound (hbound.incoming p s hlink)) hsame]

/-- Traffic that is written goes over the route of its pair. -/
theorem exists_route_of_send {n : Node τ} {pair : DomainPair} {e : Element} {conn : ConnId}
    {batch : List Element} {accepted : Bool}
    (h : Effect.write conn batch accepted ∈ (n.send pair e).2.log)
    (hnot : Effect.write conn batch accepted ∉ n.log) :
    ∃ k, n.route? pair = some k ∧ (n.session k).conn = conn := by
  unfold send at h
  split at h
  · exact absurd h hnot
  · rename_i k hroute
    rcases List.mem_append.mp h with hold | hnew
    · exact absurd hold hnot
    · obtain ⟨hconn, -⟩ := Effect.write.inj (List.mem_singleton.mp hnew)
      exact ⟨k, hroute, hconn.symm⟩

/-- What is told and what is recorded when an answer settles the question about the key
of a stream. -/
structure Relays (n m : Node τ) (r : SessionKey) (p : DomainPair) (id text : String) : Prop where
  consumed : ¬ (m.session r).hasVerifyRequest p.peer id
  told : ∀ s ∈ n.incomingKeys p, (n.session s).streamId = id →
    ∃ added, m.log = n.log ++ added ∧ Effect.offeredOn (n.session s).conn added =
      [Stanza.resultReply p.own p.peer (.ofBool (decide (text = "valid"))) none]
  trusted : ∀ s ∈ n.incomingKeys p, (n.session s).streamId = id → text = "valid" → Trusts n m p s
  untouched : text ≠ "valid" ∨ (∀ s ∈ n.incomingKeys p, (n.session s).streamId ≠ id) →
    KeepsTrust n m
  silent : (∀ s ∈ n.incomingKeys p, (n.session s).streamId ≠ id) →
    ∃ added, m.log = n.log ++ added ∧
      ∀ other batch accepted, Effect.write other batch accepted ∉ added

end Node

structure Stanza.IsConsent (e : Element) (p : DomainPair) : Prop where
  kind : DialbackKind.of? e = some .result
  type : e.attr? "type" = some "valid"
  sender : e.attr? "from" = some p.own
  recipient : e.attr? "to" = some p.peer

theorem Stanza.eq_of_isConsent_resultReply {p q : DomainPair} {isRight : Bool}
    (h : IsConsent (resultReply q.own q.peer (.ofBool isRight) none) p) :
    q = p ∧ isRight = true := by
  have htype := h.type
  have hsender := h.sender
  have hrecipient := h.recipient
  rw [type_resultReply] at htype
  simp only [resultReply, Element.attr?_setAttr, attr?_dialback] at hsender hrecipient
  refine ⟨?_, ?_⟩
  · obtain ⟨own, peer⟩ := p
    obtain ⟨own', peer'⟩ := q
    simpa using And.intro hsender hrecipient
  · cases isRight with
    | false => exact absurd htype (by decide)
    | true => rfl

namespace Setup

variable {τ : Type} [Transport τ] (setup : Setup τ)

theorem queuesOutbound_after (past : List (Occurrence τ)) :
    (setup.after past).QueuesOutbound := by
  have hboth := setup.invariant (P := fun n => n.Bound ∧ n.QueuesOutbound)
    ⟨Node.bound_create _ _ _ _ _, fun k _ => by rw [session_start]; rfl⟩
    (fun hmove hn => ⟨hmove.bound hn.1, hmove.queuesOutbound hn.1 hn.2⟩)
    (fun _ _ _ hn =>
      ⟨⟨hn.1.opened, hn.1.keys, hn.1.verifies, hn.1.incoming, hn.1.outgoing⟩, hn.2⟩) past
  exact hboth.2

def SentOver (past : List (Occurrence τ)) (k : SessionKey) (e : Element) : Prop :=
  ∃ before pair rest, past = before ++ .event (.send pair e) :: rest ∧
    (setup.after before).route? pair = some k

/-- A caller sent what is written as traffic. -/
theorem sentOver_of_write {past before rest : List (Occurrence τ)} {pair : DomainPair}
    {e : Element} (heq : past = before ++ .event (.send pair e) :: rest) {conn : ConnId}
    {batch : List Element} {accepted : Bool}
    (hin : Effect.write conn batch accepted ∈
      (setup.after (before ++ [.event (.send pair e)])).log)
    (hnot : Effect.write conn batch accepted ∉ (setup.after before).log) :
    ∃ k < (setup.after past).sessions.length, ((setup.after past).session k).conn = conn ∧
      setup.SentOver past k e := by
  rw [after_snoc, next_event] at hin
  obtain ⟨k, hk, hconn⟩ := Node.exists_route_of_send hin hnot
  obtain ⟨-, hlink, -⟩ := Node.of_route? hk
  obtain ⟨-, opened, hopened, -⟩ := (setup.bound_after before).outgoing pair k hlink
  obtain ⟨hlt, hidentity⟩ := setup.identity_append before (.event (.send pair e) :: rest)
    (Node.lt_length_of_pair hopened)
  rw [← heq] at hlt hidentity
  exact ⟨k, hlt, (Session.conn_eq hidentity).trans hconn, before, pair, rest, heq, hk⟩

/-- An answer that finds a key valid, and upon which something is written, makes the session that
waits for it trusted. -/
theorem exists_trusted_of_write {before : List (Occurrence τ)} {conn question : ConnId}
    {r : SessionKey} {heard : Element} {p : DomainPair} {id : String}
    (hfind : (setup.after before).find? question = some r)
    (hkind : DialbackKind.of? heard = some .verify) (htype : heard.attr? "type" = some "valid")
    (hid : heard.attr? "id" = some id)
    (hnamed : (setup.after before).directory.pairNamed? heard = some p) {batch : List Element}
    {accepted : Bool}
    (hin : Effect.write conn batch accepted ∈
      (setup.after (before ++ [.event (.receive question heard)])).log)
    (hnot : Effect.write conn batch accepted ∉ (setup.after before).log) :
    ∃ s ∈ (setup.after before).incomingKeys p, ((setup.after before).session s).streamId = id ∧
      ((setup.after (before ++ [.event (.receive question heard)])).session s).isTrustedFor p := by
  have hstep := hin
  rw [after_snoc, next_event] at hstep
  obtain ⟨hrequest, s, htarget⟩ := Node.exists_target_of_write (setup.wellFormed_after before)
    (setup.bound_after before) setup.settings hfind hkind htype hid hnamed hstep hnot
  refine ⟨s, List.mem_of_find?_eq_some htarget, by simpa using List.find?_some htarget, ?_⟩
  rw [isTrustedFor_event_iff, Node.cause, hfind]
  exact Or.inr (.relayed r s heard id hkind htype hid hnamed hrequest htarget)

/-- A peer hears that its key is valid only on its own connection, whose session is trusted then,
unless a caller says so. -/
theorem trusted_of_consent {past : List (Occurrence τ)}
    (hids : ((setup.after past).sessions.map (·.streamId)).Nodup) {conn : ConnId}
    {batch : List Element} {accepted : Bool}
    (hwrite : Effect.write conn batch accepted ∈ (setup.after past).log) {e : Element}
    (he : e ∈ batch) {p : DomainPair} (hconsent : Stanza.IsConsent e p) :
    ∃ k < (setup.after past).sessions.length, ((setup.after past).session k).conn = conn ∧
      (((setup.after past).session k).role = .inbound ∧
        ((setup.after past).session k).isTrustedFor p ∨ setup.SentOver past k e) := by
  obtain ⟨before, event, rest, n', k, heq, hnot, hin, hbefore, hlater, hconn, hsays⟩ :=
    setup.exists_first_writing hwrite
  have hsaid := hsays e he
  generalize hcause : (setup.after before).cause event = c at hsaid
  -- Of all that is said, only the answer to a key and the traffic of a caller can be that word.
  cases hsaid with
  | waiting _ hwaiting =>
    obtain ⟨_, _, _, _, _, _, -, -, hquestion⟩ := setup.exists_asked_of_moves hbefore hwaiting
    have hkind := hconsent.kind
    rw [hquestion, Stanza.of?_verifyRequest] at hkind
    cases hkind
  | key q id secret =>
    have htype := hconsent.type
    rw [Stanza.type_key] at htype
    cases htype
  | utterance _ hutterance =>
    cases hutterance with
    | complaint _ condition =>
      have hkind := hconsent.kind
      rw [Stanza.of?_streamError] at hkind
      cases hkind
    | refusal _ heard pair condition =>
      have htype := hconsent.type
      rw [Stanza.type_resultReply] at htype
      exact absurd htype (by decide)
    | answer _ question recipient sender id pair =>
      have hkind := hconsent.kind
      rw [Stanza.of?_verifyReply] at hkind
      cases hkind
    | traffic _ pair _ hroute =>
      obtain rfl := Node.eq_of_cause_eq_call hcause
      obtain ⟨j, hlt, hjconn, hsent⟩ := setup.sentOver_of_write heq hin hnot
      exact ⟨j, hlt, hjconn, Or.inr hsent⟩
    | verdict r _ heard q id verdict hkind htype hid hnamed hlink hstream =>
      obtain ⟨rfl, hvalid⟩ := Stanza.eq_of_isConsent_resultReply hconsent
      obtain ⟨question, rfl, hfind⟩ := Node.exists_of_cause_eq_heard hcause
      obtain ⟨text, htext, hparsed⟩ := Option.map_eq_some_iff.mp htype
      rw [of_decide_eq_true hvalid] at hparsed
      rw [Verdict.parse_eq_valid hparsed] at htext
      rw [Node.Moves.directory_eq hbefore] at hnamed
      have hbound := setup.bound_after before
      obtain ⟨s, hslink, hsstream, htrusted⟩ :=
        setup.exists_trusted_of_write hfind hkind htext hid hnamed hin hnot
      -- Both the session that is told and the one that is trusted have the stream of the answer.
      have hrole := (Node.Moves.bound hbefore hbound).incoming q k hlink
      obtain ⟨hlt, hidentity, -⟩ := setup.kept_after hlater rest (Node.lt_length_of_inbound hrole)
      obtain ⟨hslt, hsidentity⟩ := setup.identity_append before
        (.event (.receive question heard) :: rest)
        (Node.lt_length_of_inbound (hbound.incoming q s hslink))
      rw [← heq] at hlt hidentity hslt hsidentity
      have hsame : k = s := Node.eq_of_nodup hids hlt hslt (by
        rw [Session.streamId_eq hidentity, Session.streamId_eq hsidentity, hstream, hsstream])
      subst hsame
      exact ⟨k, hlt, (Session.conn_eq hidentity).trans hconn,
        Or.inl ⟨(Session.role_eq hidentity).trans hrole, setup.isTrustedFor_since heq htrusted⟩⟩

/-- An answer that was asked for is settled as it should be. -/
theorem relays_of_answer {past : List (Occurrence τ)}
    (hconns : ((setup.after past).sessions.map (·.conn)).Nodup)
    (hids : ((setup.after past).sessions.map (·.streamId)).Nodup) {conn : ConnId} {r : SessionKey}
    {stanza : Element} {p : DomainPair} {text id : String}
    (hfind : (setup.after past).find? conn = some r)
    (hkind : DialbackKind.of? stanza = some .verify) (htype : stanza.attr? "type" = some text)
    (hid : stanza.attr? "id" = some id) (hnamed : setup.directory.pairNamed? stanza = some p)
    (hrequest : ((setup.after past).session r).hasVerifyRequest p.peer id) :
    Node.Relays (setup.after past) (setup.after (past ++ [.event (.receive conn stanza)])) r p id
      text := by
  have hn := setup.wellFormed_after past
  have hbound := setup.bound_after past
  rw [← setup.directory_after past] at hnamed
  have hnone (hno : ∀ s ∈ (setup.after past).incomingKeys p,
      ((setup.after past).session s).streamId ≠ id) :
      (setup.after past).incomingByStream? p id = none :=
    List.find?_eq_none.mpr fun s hs => by simpa using hno s hs
  have hsome {s : SessionKey} (hlink : s ∈ (setup.after past).incomingKeys p)
      (hstream : ((setup.after past).session s).streamId = id) :
      (setup.after past).incomingByStream? p id = some s :=
    Node.incomingByStream?_of_mem hbound hids hlink hstream
  rw [after_snoc, next_event]
  refine ⟨?_, fun s hlink hstream => ?_, fun s hlink hstream hvalid => ?_, fun h => ?_,
    fun hno => ?_⟩
  · exact Node.not_hasVerifyRequest_of_answer hn setup.settings hfind hnamed hkind htype hid
      hrequest
  · have hrole := hbound.incoming p s hlink
    exact Node.exists_log_of_answer hn hbound setup.settings hfind hkind htype hid hnamed hrequest
      (hsome hlink hstream) (Node.hasOwnConn_of_nodup hconns (Node.lt_length_of_inbound hrole))
      (setup.queuesOutbound_after past s hrole)
  · refine Node.Earns.trusts hn hbound (setup.tlsActive_of_trusted past) setup.settings ?_
    rw [show (setup.after past).cause (.receive conn stanza) = .heard r stanza by
      simp [Node.cause, hfind]]
    exact .relayed r s stanza id hkind (hvalid ▸ htype) hid hnamed hrequest (hsome hlink hstream)
  · exact Node.keepsTrust_of_answer hn hbound setup.settings hfind hkind htype hid hnamed hrequest
      (h.imp_right hnone)
  · exact Node.exists_log_of_no_target hn hbound setup.settings hfind hkind htype hid hnamed
      hrequest (hnone hno)

/-- What a peer is told about its key is what is recorded of it. The answer to a question of ours
takes the question back; the peer that waits is told once, that its key is valid just if the answer
says so in that very word, and then its session becomes trusted and else nobody; where nobody waits,
nothing is told or recorded. So a peer that was told that its key is valid was told so on its own
connection, whose session is trusted, unless a caller sent it that word as traffic. -/
theorem told_as_recorded {past : List (Occurrence τ)}
    (hconns : ((setup.after past).sessions.map (·.conn)).Nodup)
    (hids : ((setup.after past).sessions.map (·.streamId)).Nodup) :
    let n := setup.after past
    (∀ (conn : ConnId) (r : SessionKey) (stanza : Element) (p : DomainPair) (text id : String),
      n.find? conn = some r → DialbackKind.of? stanza = some .verify →
      stanza.attr? "type" = some text → stanza.attr? "id" = some id →
      setup.directory.pairNamed? stanza = some p → (n.session r).hasVerifyRequest p.peer id →
      Node.Relays n (setup.after (past ++ [.event (.receive conn stanza)])) r p id text) ∧
    ∀ (conn : ConnId) (batch : List Element) (accepted : Bool) (e : Element) (p : DomainPair),
      Effect.write conn batch accepted ∈ n.log → e ∈ batch → Stanza.IsConsent e p →
      ∃ k < n.sessions.length, (n.session k).conn = conn ∧
        ((n.session k).role = .inbound ∧ (n.session k).isTrustedFor p ∨
          setup.SentOver past k e) := by
  intro n
  refine ⟨fun conn r stanza p text id hfind hkind htype hid hnamed hrequest => ?_,
    fun conn batch accepted e p hwrite he hconsent => ?_⟩
  · exact setup.relays_of_answer hconns hids hfind hkind htype hid hnamed hrequest
  · exact setup.trusted_of_consent hids hwrite he hconsent

/-- A peer presents a key, the authoritative server finds it valid, and the peer is told. -/
theorem told_as_recorded_of_keyVerified :
    let p : DomainPair := ⟨"b.example", "a.example"⟩
    let asking := keyVerified.take 3
    let consent := Stanza.resultReply "b.example" "a.example" .valid none
    Node.Relays (served.after asking) (served.after keyVerified) 1 p (identifierText 1) "valid" ∧
      0 ∈ (served.after asking).incomingKeys p ∧
      ((served.after asking).session 0).streamId = identifierText 1 ∧
      Effect.write ⟨1⟩ [consent] true ∈ (served.after keyVerified).log ∧
      ∃ k, ((served.after keyVerified).session k).conn = ⟨1⟩ ∧
        (((served.after keyVerified).session k).role = .inbound ∧
          ((served.after keyVerified).session k).isTrustedFor p ∨
          served.SentOver keyVerified k consent) := by
  intro p asking consent
  have hasking : ((served.after asking).sessions.map (·.conn)).Nodup ∧
      ((served.after asking).sessions.map (·.streamId)).Nodup ∧
      (served.after asking).find? ⟨1000⟩ = some 1 ∧
      ((served.after asking).session 1).hasVerifyRequest "a.example" (identifierText 1) ∧
      0 ∈ (served.after asking).incomingKeys p ∧
      ((served.after asking).session 0).streamId = identifierText 1 := by
    rw [after_eq_foldl]
    decide +kernel
  have htold : ((served.after keyVerified).sessions.map (·.conn)).Nodup ∧
      ((served.after keyVerified).sessions.map (·.streamId)).Nodup ∧
      Effect.write ⟨1⟩ [consent] true ∈ (served.after keyVerified).log := by
    rw [after_eq_foldl]
    decide +kernel
  obtain ⟨hconns, hids, hfind, hrequest, hlink, hstream⟩ := hasking
  obtain ⟨hconns', hids', hwrite⟩ := htold
  let answer := Stanza.verifyReply "a.example" "b.example" (identifierText 1) true
  have hnamed : served.directory.pairNamed? answer = some p := by decide +kernel
  have hconsent : Stanza.IsConsent consent p :=
    ⟨Stanza.of?_resultReply _ _ _ _, Stanza.type_resultReply _ _ _ _, by decide +kernel,
      by decide +kernel⟩
  have hrelays := (served.told_as_recorded hconns hids).1 ⟨1000⟩ 1 answer p "valid"
    (identifierText 1) hfind (Stanza.of?_verifyReply _ _ _ _) (Stanza.type_verifyReply _ _ _ _)
    (by simp [answer, Stanza.attr?_verifyReply]) hnamed hrequest
  obtain ⟨k, -, hconn, htrusted⟩ := (served.told_as_recorded hconns' hids').2 ⟨1⟩ [consent] true
    consent p hwrite (List.mem_singleton_self _) hconsent
  exact ⟨hrelays, hlink, hstream, hwrite, k, hconn, htrusted⟩

/-- Over a connection that we opened and that is trusted, a caller may send the peer the word that a
key of it is valid, though no peer presents a key there. -/
theorem consent_sent_as_traffic :
    let p : DomainPair := ⟨"b.example", "a.example"⟩
    let consent := Stanza.resultReply "b.example" "a.example" .valid none
    let n := served.after (keySent p ++ [
      .event (.receive ⟨1000⟩ (Stanza.resultReply "a.example" "b.example" .valid none)),
      .event (.send p consent)])
    (n.sessions.map (·.conn)).Nodup ∧ (n.sessions.map (·.streamId)).Nodup ∧
      Effect.write ⟨1000⟩ [consent] true ∈ n.log ∧ Stanza.IsConsent consent p ∧
      ¬ ∃ k < n.sessions.length, (n.session k).conn = ⟨1000⟩ ∧ (n.session k).role = .inbound ∧
        (n.session k).isTrustedFor p := by
  intro p consent n
  have hrun : (n.sessions.map (·.conn)).Nodup ∧ (n.sessions.map (·.streamId)).Nodup ∧
      Effect.write ⟨1000⟩ [consent] true ∈ n.log ∧
      ∀ k < n.sessions.length, (n.session k).role = .outbound := by
    simp only [n]
    rw [after_eq_foldl]
    decide +kernel
  obtain ⟨hconns, hids, hwrite, houtbound⟩ := hrun
  have hconsent : Stanza.IsConsent consent p :=
    ⟨Stanza.of?_resultReply _ _ _ _, Stanza.type_resultReply _ _ _ _, by decide +kernel,
      by decide +kernel⟩
  refine ⟨hconns, hids, hwrite, hconsent, ?_⟩
  rintro ⟨k, hk, -, hinbound, -⟩
  rw [houtbound k hk] at hinbound
  cases hinbound

end Setup

end Federation
