import Federation.Proofs.Node.Tls
import Federation.Proofs.Trust.ExactPair

/-!
Keys that we present without TLS. The features of a peer do not lead to a key if the pair demands
TLS. A stream header that announces no version does, because no features follow it and nothing is
checked on that way.
-/

namespace Federation

def Stanza.IsKey (e : Element) : Prop :=
  DialbackKind.of? e = some .result ∧ e.attr? "type" = none

theorem Stanza.not_isKey_verifyRequest (sender recipient id key : String) :
    ¬ IsKey (verifyRequest sender recipient id key) := by
  rintro ⟨hkind, -⟩
  rw [of?_verifyRequest] at hkind
  cases hkind

namespace Node

variable {τ : Type} [Transport τ]

/-- The stream id of a peer is noted only when its header announces one. -/
theorem Moves.isSome_peerStreamId {n m : Node τ} {c : Cause} (h : Moves c n m) {k : SessionKey}
    (hid : (m.session k).peerStreamId.isSome) :
    (n.session k).peerStreamId.isSome ∨ ∃ header, c = .header k header ∧ header.id.isSome := by
  induction h with
  | refl => exact Or.inl hid
  | tail _ hmove ih =>
    rcases (hmove.change k).notes_cases with
      hsame | ⟨conn, trust, -, hs⟩ | ⟨header, id, hheader, hannounced, -⟩
    · exact ih ((congrArg (·.2.2.isSome) hsame).symm.trans hid)
    · rw [hs] at hid
      exact ih hid
    · exact Or.inr ⟨header, hheader, by rw [hannounced]; rfl⟩

variable {n : Node τ} {k : SessionKey} {p : DomainPair} {id secret : String}

/-- A key is offered whenever one is to be presented and all that it is made of is known. -/
theorem presentKey_eq_offerKey (hid : (n.session k).peerStreamId = some id)
    (hpair : (n.session k).pair = some p) (hrelay : (n.session k).isRelay = false)
    (hsecret : n.directory.secretFor p.own = .ok secret) :
    n.presentKey k = (n.alter k (·.setMethod dialbackMethod)).offerKey k p
      (Key.derive p.own p.peer secret id) := by
  simp only [presentKey, hid, hpair, hsecret, hrelay, Bool.false_eq_true, if_false]
  rfl

/-- It is written behind what waits. -/
theorem log_presentKey_eq (hid : (n.session k).peerStreamId = some id)
    (hpair : (n.session k).pair = some p) (hrelay : (n.session k).isRelay = false)
    (hsecret : n.directory.secretFor p.own = .ok secret) :
    (n.presentKey k).log = (n.write (n.session k).conn ((n.session k).waiting ++
      [Stanza.key p.own p.peer (Key.derive p.own p.peer secret id)])).2.log := by
  have hview : ∀ {α : Type} (view : Session → α),
      (∀ s, view (s.setMethod dialbackMethod) = view s) →
      view ((n.alter k (·.setMethod dialbackMethod)).session k) = view (n.session k) :=
    fun view hf => view_session_alter view hf n k k
  have hlog := log_offerKey_eq (n := n.alter k (·.setMethod dialbackMethod)) (k := k)
    (by simpa using lt_length_of_pair hpair) p (Key.derive p.own p.peer secret id)
  rw [hview Session.conn fun _ => rfl, hview Session.waiting fun _ => rfl] at hlog
  rw [presentKey_eq_offerKey hid hpair hrelay hsecret]
  exact hlog

theorem log_presentKey (hid : (n.session k).peerStreamId = some id)
    (hpair : (n.session k).pair = some p) (hrelay : (n.session k).isRelay = false)
    (hsecret : n.directory.secretFor p.own = .ok secret) :
    ∃ accepted, (n.presentKey k).log = n.log ++ [.write (n.session k).conn ((n.session k).waiting ++
      [Stanza.key p.own p.peer (Key.derive p.own p.peer secret id)]) accepted] :=
  ⟨_, log_presentKey_eq hid hpair hrelay hsecret⟩

def notePeerStream (n : Node τ) (k : SessionKey) (header : StreamHeader) : Node τ :=
  match header.id with
  | some id => n.alter k (·.setPeerStreamId id)
  | none => n

section Header

variable (n k) (header : StreamHeader)

omit [Transport τ] in
theorem view_session_notePeerStream {α : Type} (view : Session → α)
    (hview : ∀ s id, view (s.setPeerStreamId id) = view s) (j : SessionKey) :
    view ((n.notePeerStream k header).session j) = view (n.session j) := by
  unfold notePeerStream
  cases header.id with
  | none => rfl
  | some id => exact view_session_alter view (f := (·.setPeerStreamId id)) (hview · id) n k j

omit [Transport τ] in
theorem directory_notePeerStream : (n.notePeerStream k header).directory = n.directory := by
  unfold notePeerStream
  split <;> rfl

omit [Transport τ] in
theorem log_notePeerStream : (n.notePeerStream k header).log = n.log := by
  unfold notePeerStream
  split <;> rfl

variable {n k header}

omit [Transport τ] in
theorem isSome_peerStreamId_notePeerStream (hk : k < n.sessions.length)
    (hannounced : header.id.isSome ∨ (n.session k).peerStreamId.isSome) :
    ((n.notePeerStream k header).session k).peerStreamId.isSome := by
  unfold notePeerStream
  cases hid : header.id with
  | none => simpa [hid] using hannounced
  | some id =>
    simp only
    rw [session_alter_self hk]
    rfl

/-- A header without a version leads to a key on a connection that we opened. -/
theorem step_header_without_version (settings : Settings) {conn : ConnId}
    (hfind : n.find? conn = some k) (hrole : (n.session k).role = .outbound)
    (hversion : header.version = none) :
    n.step (Chain.standard settings) (.streamOpened conn header) =
      (n.notePeerStream k header).presentKey k := by
  have hrole' :=
    (view_session_notePeerStream n k header Session.role (fun _ _ => rfl) k).trans hrole
  unfold notePeerStream at hrole' ⊢
  cases hid : header.id <;> simp only [hid] at hrole' <;>
    simp [step, streamOpened, hfind, hrole, hid, standard_eq, Chain.streamOpened,
      Processor.streamError, Processor.dialback, hversion, hrole']

/-- The key is written if all that it is made of is known then. -/
theorem log_step_header_without_version (settings : Settings) {conn : ConnId}
    (hfind : n.find? conn = some k) (hrole : (n.session k).role = .outbound)
    (hversion : header.version = none)
    (hannounced : header.id.isSome ∨ (n.session k).peerStreamId.isSome)
    (hpair : (n.session k).pair = some p) (hrelay : (n.session k).isRelay = false)
    (hsecret : n.directory.secretFor p.own = .ok secret) :
    ∃ accepted key, (n.step (Chain.standard settings) (.streamOpened conn header)).log =
      n.log ++ [.write (n.session k).conn ((n.session k).waiting ++ [Stanza.key p.own p.peer key])
        accepted] := by
  have hknown := isSome_peerStreamId_notePeerStream (lt_length_of_pair hpair) hannounced
  obtain ⟨id, hid⟩ := Option.isSome_iff_exists.mp hknown
  have hview : ∀ {α : Type} (view : Session → α), (∀ s id, view (s.setPeerStreamId id) = view s) →
      view ((n.notePeerStream k header).session k) = view (n.session k) :=
    fun view hf => view_session_notePeerStream n k header view hf k
  obtain ⟨accepted, hlog⟩ := log_presentKey hid
    ((hview Session.pair fun _ _ => rfl).trans hpair)
    ((hview Session.isRelay fun _ _ => rfl).trans hrelay)
    (by rw [directory_notePeerStream]; exact hsecret)
  rw [hview Session.conn fun _ _ => rfl, hview Session.waiting fun _ _ => rfl,
    log_notePeerStream] at hlog
  exact ⟨accepted, _, (congrArg Node.log
    (step_header_without_version settings hfind hrole hversion)).trans hlog⟩

end Header

end Node

namespace Setup

variable {τ : Type} [Transport τ] (setup : Setup τ)

/-- A header without a version was received on a session when the stream id of the peer was known,
from it or from an earlier one. -/
def HeaderWithoutVersion (past : List (Occurrence τ)) (k : SessionKey) : Prop :=
  ∃ before event rest header, past = before ++ .event event :: rest ∧
    (setup.after before).cause event = .header k header ∧ header.version = none ∧
    (header.id.isSome ∨ ((setup.after before).session k).peerStreamId.isSome)

/-- Only questions wait to be written. -/
theorem not_isKey_of_mem_waiting (past : List (Occurrence τ)) (k : SessionKey) :
    ∀ e ∈ ((setup.after past).session k).waiting, ¬ Stanza.IsKey e := by
  intro e he hkey
  obtain ⟨_, _, _, _, _, _, -, -, hrequest⟩ := setup.exists_asked he
  rw [hrequest] at hkey
  exact Stanza.not_isKey_verifyRequest _ _ _ _ hkey

section

variable {past : List (Occurrence τ)} {k : SessionKey} {p : DomainPair}
  (hconns : ((setup.after past).sessions.map (·.conn)).Nodup)
  (hrole : ((setup.after past).session k).role = .outbound)
  (hpair : ((setup.after past).session k).pair = some p)
  (hdemands : setup.demandsTls p) (htls : ¬ setup.TlsCompleted past k)

include hconns hpair hdemands htls

/-- What presents a key on the connection of such a session is due to a header without a version, or
it is the traffic of a caller. -/
theorem header_or_send_of_says {before rest : List (Occurrence τ)} {event : Event} {n : Node τ}
    {j : SessionKey} {e : Element} (heq : past = before ++ .event event :: rest)
    (hbefore : Node.Moves ((setup.after before).cause event) (setup.after before) n)
    (hlater : Node.Moves ((setup.after before).cause event) n
      (setup.after (before ++ [.event event])))
    (hconn : (n.session j).conn = ((setup.after past).session k).conn)
    (hspoken : Node.Says n j ((setup.after before).cause event) e) (hkey : Stanza.IsKey e) :
    (((setup.after past).session k).isRelay = false ∧
      (∃ secret, setup.directory.secretFor p.own = .ok secret) ∧
      setup.HeaderWithoutVersion past k) ∨
    ∃ pair, event = .send pair e ∧ n.route? pair = some j := by
  obtain ⟨hkind, htype⟩ := hkey
  generalize hcause : (setup.after before).cause event = c at hspoken
  cases hspoken with
  | waiting _ hwaiting =>
    obtain ⟨_, _, _, _, _, _, -, -, hrequest⟩ := setup.exists_asked_of_moves hbefore hwaiting
    rw [hrequest, Stanza.of?_verifyRequest] at hkind
    cases hkind
  | utterance _ hutterance =>
    obtain ⟨pair, hcall, hroute⟩ := hutterance.exists_send (by rw [hkind]; rfl) htype
    exact Or.inr ⟨pair, Node.eq_of_cause_eq_call (hcause.trans hcall), hroute⟩
  | key q id secret hmay houtbound hpair' hid hsecret hrelay =>
    left
    have hj := Node.lt_length_of_pair hpair'
    obtain ⟨hlt, hidentity, hpairs⟩ := setup.kept_after hlater rest hj
    rw [← heq] at hlt hidentity hpairs
    have hjk : j = k := Node.eq_of_nodup hconns hlt (Node.lt_length_of_pair hpair)
      ((Session.conn_eq hidentity).trans hconn)
    subst hjk
    have hsame : q = p := by
      have hlast := hpairs houtbound hpair'
      simpa [hpair] using hlast.symm
    subst hsame
    have hdirectory : n.directory = setup.directory :=
      (Node.Moves.directory_eq hbefore).trans (setup.directory_after before)
    rw [hdirectory] at hsecret
    refine ⟨(Session.isRelay_eq hidentity).trans hrelay, ⟨secret, hsecret⟩, ?_⟩
    cases hmay with
    | header header hversion =>
      refine ⟨before, event, rest, header, heq, hcause, hversion, ?_⟩
      rw [hcause] at hbefore
      rcases Node.Moves.isSome_peerStreamId hbefore (by rw [hid]; rfl) with
        hknown | ⟨_, hsame, hsome⟩
      · exact Or.inr hknown
      · cases hsame
        exact Or.inl hsome
    | features stanza _ _ hactive =>
      -- The features lead to a key only over TLS, and TLS stays.
      have hlast := Node.Moves.tlsActive_of_tlsActive hlater
        (hactive (by rw [Node.Moves.demandsTls_eq hbefore, setup.demandsTls_after]; exact hdemands))
      have hsplit : past = (before ++ [.event event]) ++ rest := by simp [heq]
      refine absurd ((setup.tlsActive_iff past j).mp ?_) htls
      rw [hsplit]
      exact setup.tlsActive_append _ rest hlast

include hrole

/-- A session that carries traffic without TLS was found valid, so a key was written on it. -/
theorem header_of_trusted {q : DomainPair}
    (htrusted : ((setup.after past).session k).isTrustedFor q) :
    ((setup.after past).session k).isRelay = false ∧
      (∃ secret, setup.directory.secretFor p.own = .ok secret) ∧
      setup.HeaderWithoutVersion past k := by
  rcases setup.foundValid_or_certifiedBy hrole hpair htrusted with
    hvalid | ⟨-, before, event, rest, features, heq, -, -, hcertified⟩
  · obtain ⟨before, event, rest, n, j, key, heq, hsend, hbefore, hlater, hconn, hspoken⟩ :=
      setup.exists_says_of_keyQueued (setup.keyQueued_of_foundValid hpair hvalid).2
    rcases setup.header_or_send_of_says hconns hpair hdemands htls heq hbefore hlater hconn hspoken
        ⟨Stanza.of?_key _ _ _, Stanza.type_key _ _ _⟩ with hheader | ⟨pair, hevent, -⟩
    · exact hheader
    · exact absurd hevent (hsend pair _)
  · refine absurd ((setup.tlsActive_iff past k).mp ?_) htls
    rw [heq]
    exact setup.tlsActive_append before _ (setup.tlsActive_of_trusted before k hcertified.trusted)

end

/-- A header without a version leads to a key at once. -/
theorem exists_key_of_header {past : List (Occurrence τ)} {k : SessionKey} {p : DomainPair}
    (hrole : ((setup.after past).session k).role = .outbound)
    (hpair : ((setup.after past).session k).pair = some p)
    (hrelay : ((setup.after past).session k).isRelay = false) {secret : String}
    (hsecret : setup.directory.secretFor p.own = .ok secret)
    (hheader : setup.HeaderWithoutVersion past k) :
    ∃ batch accepted e, Effect.write ((setup.after past).session k).conn batch accepted ∈
      (setup.after past).log ∧ e ∈ batch ∧ Stanza.IsKey e := by
  obtain ⟨before, event, rest, header, heq, hcause, hversion, hannounced⟩ := hheader
  obtain ⟨conn, rfl, hfind⟩ := Node.exists_of_cause_eq_header hcause
  obtain ⟨hk, -⟩ := (setup.wellFormed_after before).live conn k hfind
  obtain ⟨-, hidentity⟩ :=
    setup.identity_append before (.event (.streamOpened conn header) :: rest) hk
  rw [← heq] at hidentity
  have hrole' := (Session.role_eq hidentity).symm.trans hrole
  obtain ⟨opened, hopened, -⟩ := (setup.bound_after before).opened k hk hrole'
  have hsame : opened = p := by
    have hkeep :=
      setup.pair_append before (.event (.streamOpened conn header) :: rest) hrole' hopened
    rw [← heq, hpair] at hkeep
    simpa using hkeep.2.symm
  subst hsame
  have hdirectory := setup.directory_after before
  obtain ⟨accepted, key, hlog⟩ := Node.log_step_header_without_version setup.settings hfind
    hrole' hversion hannounced hopened ((Session.isRelay_eq hidentity).symm.trans hrelay)
    (by rw [hdirectory]; exact hsecret)
  have hgrown := setup.log_append (before ++ [.event (.streamOpened conn header)]) rest
  rw [List.append_assoc, List.singleton_append, ← heq, after_snoc] at hgrown
  rw [Session.conn_eq hidentity]
  refine ⟨_, accepted, _, hgrown.subset (hlog ▸ List.mem_append_right _ List.mem_cons_self),
    List.mem_append_right _ List.mem_cons_self, Stanza.of?_key _ _ _, Stanza.type_key _ _ _⟩

/-- Before TLS is there, a pair that demands it is presented on a connection that we opened just if
the peer sends a header without a version, the connection is no relay and the own domain has a
secret. No features lead to a key then, and none ever waits to be written. -/
theorem own_key_written_iff_header {past : List (Occurrence τ)} {k : SessionKey} {p : DomainPair}
    (hconns : ((setup.after past).sessions.map (·.conn)).Nodup)
    (hrole : ((setup.after past).session k).role = .outbound)
    (hpair : ((setup.after past).session k).pair = some p)
    (hdemands : setup.demandsTls p) (htls : ¬ setup.TlsCompleted past k) :
    (∀ e ∈ ((setup.after past).session k).waiting, ¬ Stanza.IsKey e) ∧
    ((∃ batch accepted e, Effect.write ((setup.after past).session k).conn batch accepted ∈
        (setup.after past).log ∧ e ∈ batch ∧ Stanza.IsKey e) ↔
      ((setup.after past).session k).isRelay = false ∧
        (∃ secret, setup.directory.secretFor p.own = .ok secret) ∧
        setup.HeaderWithoutVersion past k) := by
  refine ⟨setup.not_isKey_of_mem_waiting past k, ?_, ?_⟩
  · rintro ⟨batch, accepted, e, hwrite, he, hkey⟩
    obtain ⟨before, event, rest, n, j, heq, hbefore, hlater, hconn, hspoken⟩ :=
      setup.exists_writing hwrite
    rcases setup.header_or_send_of_says hconns hpair hdemands htls heq hbefore hlater hconn
        (hspoken e he) hkey with hheader | ⟨q, -, hroute⟩
    · exact hheader
    · obtain ⟨-, hlink, htrusted, -⟩ := Node.of_route? hroute
      obtain ⟨-, opened, hopened, -⟩ :=
        (Node.Moves.bound hbefore (setup.bound_after before)).outgoing q j hlink
      obtain ⟨hlt, hidentity, -⟩ := setup.kept_after hlater rest (Node.lt_length_of_pair hopened)
      rw [← heq] at hlt hidentity
      have hjk : j = k := Node.eq_of_nodup hconns hlt (Node.lt_length_of_pair hpair)
        ((Session.conn_eq hidentity).trans hconn)
      rw [hjk] at htrusted
      exact setup.header_of_trusted hconns hrole hpair hdemands htls
        (setup.isTrustedFor_since heq (hlater.isTrustedFor_of_isTrustedFor htrusted))
  · rintro ⟨hrelay, ⟨secret, hsecret⟩, hheader⟩
    exact setup.exists_key_of_header hrole hpair hrelay hsecret hheader

def strict : Setup Simulated :=
  { served with
    directory := .exact [{ name := "b.example", secret := some "secret", tlsRequired := true }] }

/-- The peer of a connection that we opened announces no version. -/
theorem own_key_written_iff_header_of_keySent :
    let past := keySent ⟨"b.example", "a.example"⟩
    strict.demandsTls ⟨"b.example", "a.example"⟩ ∧ ¬ strict.TlsCompleted past 0 ∧
      ∃ batch accepted e, Effect.write ((strict.after past).session 0).conn batch accepted ∈
        (strict.after past).log ∧ e ∈ batch ∧ Stanza.IsKey e := by
  intro past
  have hrun : ((strict.after past).sessions.map (·.conn)).Nodup ∧
      ((strict.after past).session 0).role = .outbound ∧
      ((strict.after past).session 0).pair = some ⟨"b.example", "a.example"⟩ ∧
      ((strict.after past).session 0).tlsActive = false ∧
      ((strict.after past).session 0).isRelay = false := by
    rw [after_eq_foldl]
    decide +kernel
  have hopened : (strict.after (past.take 1)).find? ⟨1000⟩ = some 0 := by
    rw [after_eq_foldl]
    decide +kernel
  obtain ⟨hconns, hrole, hpair, hactive, hrelay⟩ := hrun
  have htls : ¬ strict.TlsCompleted past 0 := fun hcompleted =>
    Bool.false_ne_true (hactive.symm.trans ((strict.tlsActive_iff _ _).mpr hcompleted))
  have hdemands : strict.demandsTls ⟨"b.example", "a.example"⟩ := by decide +kernel
  have hheader : strict.HeaderWithoutVersion past 0 :=
    ⟨past.take 1, .streamOpened ⟨1000⟩ { id := some "x" }, [], { id := some "x" }, rfl,
      by simp only [Node.cause, hopened], rfl, Or.inl rfl⟩
  exact ⟨hdemands, htls, (strict.own_key_written_iff_header hconns hrole hpair hdemands htls).2.mpr
    ⟨hrelay, ⟨"secret", rfl⟩, hheader⟩⟩

end Setup

end Federation
