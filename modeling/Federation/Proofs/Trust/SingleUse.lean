import Federation.Proofs.Trust.Output
import Federation.Proofs.Trust.Relays
import Federation.Proofs.Trust.Sparing
import Mathlib.Algebra.Order.Group.Multiset

/-!
Relays ask one question. What is put on a session is accounted for in whole: the keys and questions
that are offered to the transport for its connection, or left waiting, and that did not wait before.
The only thing ever put on a relay is the question for which it was opened, except for the traffic
of callers on a relay that a certificate has made trusted. Whatever its peer answers ends it.
-/

namespace Federation

namespace Stanza

instance : DecidablePred IsControl := fun e =>
  inferInstanceAs (Decidable ((DialbackKind.of? e).isSome ∧ e.attr? "type" = none))

def IsQuestion (e : Element) : Prop :=
  DialbackKind.of? e = some .verify ∧ e.attr? "type" = none

def controls (elements : List Element) : Multiset Element :=
  (elements.filter (IsControl ·) : List Element)

theorem controls_append (elements later : List Element) :
    controls (elements ++ later) = controls elements + controls later := by
  rw [controls, List.filter_append, ← Multiset.coe_add]
  rfl

theorem controls_eq_zero {elements : List Element} (h : ∀ e ∈ elements, ¬ IsControl e) :
    controls elements = 0 := by
  rw [controls, List.filter_eq_nil_iff.mpr fun e he => by simpa using h e he]
  rfl

theorem controls_singleton {e : Element} (h : IsControl e) : controls [e] = {e} := by
  simp [controls, h]

end Stanza

namespace Effect

def offeredOn (conn : ConnId) (effects : List Effect) : List Element :=
  effects.flatMap fun effect =>
    match effect with
    | .write other batch _ => if other = conn then batch else []
    | _ => []

theorem offeredOn_append (conn : ConnId) (effects later : List Effect) :
    offeredOn conn (effects ++ later) = offeredOn conn effects ++ offeredOn conn later :=
  List.flatMap_append

theorem mem_offeredOn {conn : ConnId} {effects : List Effect} {e : Element}
    (h : e ∈ offeredOn conn effects) :
    ∃ batch accepted, Effect.write conn batch accepted ∈ effects ∧ e ∈ batch := by
  obtain ⟨effect, heffect, he⟩ := List.mem_flatMap.mp h
  split at he
  · rename_i other batch accepted
    split at he
    · rename_i hsame
      exact ⟨batch, accepted, hsame ▸ heffect, he⟩
    · cases he
  · cases he

theorem controls_offeredOn_eq_zero {conn : ConnId} {effects : List Effect}
    (h : ∀ batch accepted, Effect.write conn batch accepted ∈ effects →
      ∀ e ∈ batch, ¬ Stanza.IsControl e) : Stanza.controls (offeredOn conn effects) = 0 :=
  Stanza.controls_eq_zero fun e he => by
    obtain ⟨batch, accepted, hwrite, hmem⟩ := mem_offeredOn he
    exact h batch accepted hwrite e hmem

end Effect

namespace Node

variable {τ : Type}

/-- The keys and questions that were put on a session since an earlier node: what was offered for
its connection meanwhile and what waits now, but for what waited then. -/
def putSince (n m : Node τ) (k : SessionKey) : Multiset Element :=
  if k < m.sessions.length then
    Stanza.controls (Effect.offeredOn (m.session k).conn (m.log.drop n.log.length) ++
      (m.session k).waiting) - Stanza.controls (n.session k).waiting
  else 0

def Adds (n m : Node τ) (k : SessionKey) (extra : Multiset Element) : Prop :=
  ∃ added, m.log = n.log ++ added ∧
    Stanza.controls (Effect.offeredOn (m.session k).conn added ++ (m.session k).waiting) ≤
      Stanza.controls (n.session k).waiting + extra

namespace Adds

variable {n b m : Node τ} {j k : SessionKey} {first later extra : Multiset Element}

theorem putSince_le (h : Adds n m k extra) : n.putSince m k ≤ extra := by
  obtain ⟨added, hlog, hadds⟩ := h
  unfold putSince
  split
  · rw [hlog, List.drop_left]
    exact Multiset.sub_le_iff_le_add'.mpr hadds
  · exact Multiset.zero_le _

theorem trans (h : Adds n b k first) (h' : Adds b m k later)
    (hconn : (m.session k).conn = (b.session k).conn) : Adds n m k (first + later) := by
  obtain ⟨added, hlog, hfirst⟩ := h
  obtain ⟨added', hlog', hlater⟩ := h'
  refine ⟨added ++ added', by rw [hlog', hlog, List.append_assoc], ?_⟩
  rw [Stanza.controls_append] at hfirst
  calc Stanza.controls (Effect.offeredOn (m.session k).conn (added ++ added') ++
        (m.session k).waiting)
      = Stanza.controls (Effect.offeredOn (b.session k).conn added) +
          Stanza.controls
            (Effect.offeredOn (m.session k).conn added' ++ (m.session k).waiting) := by
        rw [Effect.offeredOn_append, List.append_assoc, Stanza.controls_append, hconn]
    _ ≤ Stanza.controls (Effect.offeredOn (b.session k).conn added) +
          (Stanza.controls (b.session k).waiting + later) := by
        gcongr
    _ ≤ Stanza.controls (n.session k).waiting + (first + later) := by
        rw [← add_assoc, ← add_assoc]
        gcongr

/-- What an operation offers is no matter if it is neither key nor question. -/
theorem of_waiting (hwaiting : (m.session k).waiting = (n.session k).waiting)
    {added : List Effect} (hlog : m.log = n.log ++ added) (hother : Effect.WithoutControl added) :
    Adds n m k 0 := by
  refine ⟨added, hlog, ?_⟩
  rw [Stanza.controls_append, Effect.controls_offeredOn_eq_zero (hother _), hwaiting, zero_add,
    add_zero]

theorem of_eq (hwaiting : (m.session k).waiting = (n.session k).waiting) (hlog : m.log = n.log) :
    Adds n m k 0 :=
  of_waiting hwaiting (hlog.trans (List.append_nil _).symm) .nil

theorem refl (n : Node τ) (k : SessionKey) : Adds n n k 0 :=
  of_eq rfl rfl

/-- What went before is no matter if it wrote nothing and left the queue alone. -/
theorem of_before (h : Adds b m k extra) (hwaiting : (b.session k).waiting = (n.session k).waiting)
    (hlog : b.log = n.log) : Adds n m k extra := by
  rwa [Adds, hwaiting, hlog] at h

theorem of_spares (h : Spares n m k) : Adds n m k 0 := by
  obtain ⟨added, hlog, hother⟩ := h.log
  refine ⟨added, hlog, ?_⟩
  rw [h.conn, Stanza.controls_append, Effect.controls_offeredOn_eq_zero hother, h.waiting, zero_add,
    add_zero]

theorem spares (h : Adds n b k extra) (h' : Spares b m k) : Adds n m k extra := by
  simpa using h.trans (of_spares h') h'.conn

/-- What waits on a connection is lost with it. -/
theorem connectionClosed (n : Node τ) (conn : ConnId) (k : SessionKey) :
    Adds n (n.connectionClosed conn) k 0 := by
  by_cases hfind : n.find? conn = some k
  · refine ⟨[], log_connectionClosed.trans (List.append_nil _).symm, ?_⟩
    rw [session_connectionClosed hfind]
    split
    · exact Multiset.zero_le _
    · simp [Effect.offeredOn]
  · exact of_spares (.connectionClosed_of_ne hfind)

theorem noteQuestion (hk : k < n.sessions.length) (p : DomainPair) (id key : String) :
    Adds n (n.noteQuestion k p id key) k {Stanza.verifyRequest p.own p.peer id key} := by
  refine ⟨[], (List.append_nil _).symm, ?_⟩
  have hquestion : Stanza.IsControl (Stanza.verifyRequest p.own p.peer id key) :=
    ⟨by rw [Stanza.of?_verifyRequest]; rfl, Stanza.type_verifyRequest _ _ _ _⟩
  rw [waiting_noteQuestion hk, ← Stanza.controls_singleton hquestion, ← Stanza.controls_append]
  exact le_of_eq rfl

variable [Transport τ]

/-- What waits is put nowhere when it is written. -/
theorem flush (n : Node τ) (k : SessionKey) : Adds n (n.flush k).2 k 0 := by
  by_cases hempty : (n.session k).waiting = []
  · rw [flush_eq, if_pos hempty]
    exact refl n k
  · obtain ⟨e, he⟩ := List.exists_mem_of_ne_nil _ hempty
    obtain ⟨accepted, hlog⟩ := log_flush_of_mem he
    have hsession : (n.flush k).2.session k = (n.session k).clearQueue := by
      rw [session_flush, if_pos ⟨rfl, lt_length_of_waiting hempty⟩]
    refine ⟨_, hlog, ?_⟩
    rw [hsession]
    simp [Effect.offeredOn, Session.clearQueue]

end Adds

section Relay

variable [Transport τ]

def trafficOver (n : Node τ) (k : SessionKey) : Event → Multiset Element
  | .send pair stanza => if n.route? pair = some k then Stanza.controls [stanza] else 0
  | _ => 0

variable {n m : Node τ} {k : SessionKey}

theorem lt_length_of_route? {p : DomainPair} (h : n.route? p = some k) :
    k < n.sessions.length := by
  have htrusted := (of_route? h).2.2.1
  by_contra hge
  rw [session_of_length_le (Nat.not_lt.mp hge)] at htrusted
  cases htrusted

theorem usableOutgoing?_ne_of_isRelay (hrelay : (n.session k).isRelay) (p : DomainPair) :
    n.usableOutgoing? p ≠ some k := by
  intro husable
  rw [(of_usableOutgoing? husable).2.1] at hrelay
  cases hrelay

/-- Moves for any cause but a question and traffic add nothing to a relay. -/
theorem Move.adds_of_isRelay {c : Cause} (h : Move c n m)
    (hasks : ∀ (n : Node τ) p id key, ¬ Asks n p id key c)
    (hsend : ∀ pair stanza, c ≠ .call (.send pair stanza)) (hown : n.HasOwnConn k)
    (hrelay : (n.session k).isRelay) : Adds n m k 0 := by
  have htrusted : ∀ {b : Node τ}, Spares n b k → ∀ p j, Adds n (b.trust p j) k 0 :=
    fun {b} hspares p j => .of_spares (hspares.trans (.trust b p j k))
  cases h with
  | remark j f hremark =>
    refine .of_eq ?_ rfl
    rw [session_alter]
    split
    · exact (hremark.ledger_eq _).2.2.2
    · rfl
  | ensure | tick => exact .of_eq rfl rfl
  | arm conn timeout j hfind => exact .of_spares (.arm n timeout j k)
  | join j stanza p =>
    refine .of_eq ?_ rfl
    rw [session_addIncoming]
    split <;> rfl
  | offerKey j p id secret hmay hrole hpair hplain =>
    have hne : k ≠ j := by
      rintro rfl
      rw [hrelay] at hplain
      cases hplain
    exact .of_spares (.offerKey_of_ne hown hne p _)
  | queueRequest j p id key hask => exact absurd hask (hasks n p id key)
  | flush j =>
    by_cases hkj : k = j
    · exact hkj ▸ .flush n k
    · exact .of_spares (.flush_of_ne hown hkj)
  | say j stanza hutterance =>
    refine .of_spares (.sendNow n j k fun hcontrol => ?_)
    obtain ⟨pair, hcall, -⟩ := hutterance.exists_send hcontrol.1 hcontrol.2
    exact hsend pair stanza hcall
  | stop j force => exact .of_spares (.stop n j k force)
  | grantVerdict j stanza p =>
    exact htrusted (.alter (f := (·.dropKeyRequest p.peer)) (fun _ => rfl) (fun _ => rfl) n j k) p j
  | grantCertificate j stanza pair p => exact htrusted (.refl n k) p j
  | grantRelayed r t stanza p id =>
    exact htrusted
      (.alter (f := (·.dropVerifyRequest p.peer id)) (fun _ => rfl) (fun _ => rfl) n r k) p t
  | settle r stanza p id =>
    exact .of_spares
      (.alter (f := (·.dropVerifyRequest p.peer id)) (fun _ => rfl) (fun _ => rfl) n r k)
  | accept conn address =>
    exact .of_eq (congrArg Session.waiting (session_addSession_of_lt hown.1 _)) rfl
  | refuse p relayFor e => exact .of_spares (.connect n p k)
  | establish p relayFor conn =>
    refine .of_waiting ?_ (log_connect n p)
      (.of_no_write fun _ _ _ hwrite => Effect.noConfusion (List.mem_singleton.mp hwrite))
    rw [session_establish, sessions_connect, if_neg (Nat.ne_of_lt hown.1)]
    rfl
  | close conn j => exact .connectionClosed n conn k

theorem Moves.adds_of_isRelay {c : Cause} (h : Moves c n m)
    (hasks : ∀ (n : Node τ) p id key, ¬ Asks n p id key c)
    (hsend : ∀ pair stanza, c ≠ .call (.send pair stanza))
    (hconns : (m.sessions.map (·.conn)).Nodup) (hrelay : (n.session k).isRelay) :
    Adds n m k 0 := by
  induction h with
  | refl => exact .refl n k
  | tail hmoves hmove ih =>
    rename_i b m
    have hk := lt_length_of_isRelay hrelay
    have hk' := Nat.lt_of_lt_of_le hk (Moves.length_le hmoves)
    have hrelay' : (b.session k).isRelay :=
      (Session.isRelay_eq (Moves.identity_eq hmoves hk)).trans hrelay
    have hconns' := hmove.conns_prefix.sublist.nodup hconns
    have hlast := hmove.adds_of_isRelay hasks hsend (hasOwnConn_of_nodup hconns' hk') hrelay'
    simpa using (ih hconns').trans hlast (Session.conn_eq (hmove.identity_eq hk'))

section Existing

variable (hn : n.WellFormed) (settings : Settings) {event : Event}

include hn

/-- A question that is put while a relay is there goes over another session. -/
theorem adds_of_asks (hown : n.HasOwnConn k) (hrelay : (n.session k).isRelay) {b : Node τ}
    {p : DomainPair} {id key : String} (hasks : Asks b p id key (n.cause event)) :
    Adds n (n.step (Chain.standard settings) event) k 0 := by
  generalize hcause : n.cause event = c at hasks
  cases hasks with
  | caller pair hcheck =>
    obtain rfl := eq_of_cause_eq_call hcause
    exact .of_spares (.requestVerification_of_ne hn.entries pair hown id key
      fun q _ => usableOutgoing?_ne_of_isRelay hrelay q)
  | presented j stanza _ hkind htype =>
    obtain ⟨conn, rfl, hfind⟩ := exists_of_cause_eq_heard hcause
    cases hnamed : n.directory.pairNamed? stanza with
    | none =>
      obtain ⟨condition, heq | heq⟩ :=
        step_receive_unnamed hn.entries settings hfind hkind hnamed <;> rw [heq]
      · exact .of_spares (.failStream n j k condition false)
      · exact .of_spares ((Spares.alter (f := (·.adoptPair stanza.spelled)) (fun _ => rfl)
          (fun _ => rfl) n j k).trans (.failStream _ j k condition false))
    | some q =>
      let taken := n.takeIn j stanza.spelled q
      have htaken : Moves (.heard j stanza) n taken := moves_takeIn_of_heard hn hfind hkind hnamed
      have hown' : taken.HasOwnConn k := hown.of_eq (length_sessions_takeIn n j _ q)
        (view_session_takeIn n j _ q Session.conn (fun _ => rfl) fun _ => rfl)
      have hrelay' : ((taken.alter j (·.setPhase .awaitingVerify)).session k).isRelay := by
        rw [view_session_alter Session.isRelay
          (Session.view_setPhase Session.isRelay (fun _ _ => rfl) .awaitingVerify)]
        exact (Session.isRelay_eq (Moves.identity_eq htaken hown.1)).trans hrelay
      rw [step_receive_key hn settings hfind hkind htype hnamed]
      exact .of_spares ((Spares.takeIn n j stanza.spelled q k).trans
        (.receiveKey_of_ne (Moves.hasCanonicalEntries htaken hn.entries) stanza.spelled hown' j
          stanza fun _ _ r _ => usableOutgoing?_ne_of_isRelay hrelay' r))

omit hn in
/-- Traffic adds what it is, on the session that carries it. -/
theorem adds_send (hown : n.HasOwnConn k) (pair : DomainPair) (stanza : Element) :
    Adds n (n.send pair stanza).2 k (n.trafficOver k (.send pair stanza)) := by
  cases hroute : n.route? pair with
  | none =>
    rw [send_of_no_route hroute, trafficOver, if_neg (by simp [hroute])]
    exact .refl n k
  | some j =>
    obtain ⟨accepted, hlog⟩ := log_send hroute stanza
    have hsession : (n.send pair stanza).2.session k = n.session k := by
      simp only [Node.send, hroute]
      rfl
    refine ⟨_, hlog, ?_⟩
    rw [hsession, trafficOver, hroute, Stanza.controls_append, add_comm]
    by_cases hjk : j = k
    · simp [hjk, Effect.offeredOn]
    · have hother : (n.session j).conn ≠ (n.session k).conn :=
        fun heq => hjk (hown.2 j (lt_length_of_route? hroute) heq)
      simp [hjk, hother, Effect.offeredOn, Stanza.controls]

/-- While a relay is there, nothing but traffic is added to it. -/
theorem adds_step_of_isRelay
    (hconns : ((n.step (Chain.standard settings) event).sessions.map (·.conn)).Nodup)
    (hrelay : (n.session k).isRelay) :
    Adds n (n.step (Chain.standard settings) event) k (n.trafficOver k event) := by
  have hmoves := step_moves hn settings event
  have hown : n.HasOwnConn k := hasOwnConn_of_nodup
    (Moves.conns_prefix hmoves |>.sublist.nodup hconns) (lt_length_of_isRelay hrelay)
  by_cases hsend : ∃ pair stanza, event = .send pair stanza
  · obtain ⟨pair, stanza, rfl⟩ := hsend
    exact adds_send hown pair stanza
  · have htraffic : n.trafficOver k event = 0 := by
      cases event with
      | send pair stanza => exact absurd ⟨pair, stanza, rfl⟩ hsend
      | _ => rfl
    rw [htraffic]
    by_cases hasks :
        ∃ (b : Node τ) (p : DomainPair) (id key : String), Asks b p id key (n.cause event)
    · obtain ⟨b, p, id, key, hasks⟩ := hasks
      exact adds_of_asks hn settings hown hrelay hasks
    · exact hmoves.adds_of_isRelay (fun b p id key h => hasks ⟨b, p, id, key, h⟩)
        (fun pair stanza hcause => hsend ⟨pair, stanza, eq_of_cause_eq_call hcause⟩) hconns hrelay

end Existing

section New

variable {event : Event} (hnew : n.sessions.length ≤ k)

include hnew

/-- A relay begins with an event for which it is opened. -/
theorem Moves.opens_of_isRelay {c : Cause} (h : Moves c n m) (hrelay : (m.session k).isRelay) :
    ∃ (b : Node τ) (p : DomainPair) (relayFor : Option String), Opens b p relayFor c := by
  have hnot : ¬ (n.session k).isRelay := fun hold =>
    absurd (lt_length_of_isRelay hold) (Nat.not_lt.mpr hnew)
  obtain ⟨b, d, -, hmove, -, hb, hd⟩ :=
    h.exists_move (P := fun n => (n.session k).isRelay) hnot hrelay
  have hk : ¬ d.sessions.length ≤ k := Nat.not_le.mpr (lt_length_of_isRelay hd)
  have hfresh : b.sessions.length ≤ k := by
    by_contra hlt
    exact hb ((Session.isRelay_eq (hmove.identity_eq (Nat.not_le.mp hlt))).symm.trans hd)
  rcases hmove.length_cases with
    hsame | ⟨hgrown, ⟨conn, address, -, hsession⟩ | ⟨conn, p, relayFor, hopens, -⟩⟩
  · omega
  · obtain rfl : b.sessions.length = k := by omega
    rw [hsession] at hd
    cases hd
  · exact ⟨b, p, relayFor, hopens⟩

omit [Transport τ] in
theorem not_lt_length_of_eq (hlength : m.sessions.length = n.sessions.length) :
    ¬ k < m.sessions.length := by
  rw [hlength]
  exact Nat.not_lt.mpr hnew

/-- Nothing waits on a new connection, and nothing is written on it. -/
theorem adds_dial (p : DomainPair) (relayFor : Option String) (conn : ConnId) :
    Adds n (n.dial p relayFor conn) k 0 := by
  refine .of_waiting ?_ (log_dial n p relayFor conn)
    (.of_no_write fun _ _ _ hwrite => Effect.noConfusion (List.mem_singleton.mp hwrite))
  rw [session_dial, session_of_length_le hnew]
  split <;> rfl

theorem adds_dial_connectionClosed (p : DomainPair) (relayFor : Option String) (conn : ConnId) :
    Adds n ((n.dial p relayFor conn).connectionClosed conn) k 0 := by
  refine .of_waiting ?_ (log_connectionClosed.trans (log_dial n p relayFor conn))
    (.of_no_write fun _ _ _ hwrite => Effect.noConfusion (List.mem_singleton.mp hwrite))
  rw [session_connectionClosed (n.find?_dial_self p relayFor conn), session_dial,
    session_of_length_le hnew]
  split <;> split <;> rfl

theorem adds_openConnection (hn : n.HasCanonicalEntries) (pair : DomainPair)
    (relayFor : Option String) : Adds n (n.openConnection pair relayFor).2 k 0 := by
  cases hcheck : DomainPair.checked pair.own pair.peer n.directory.isServed with
  | error e =>
    unfold openConnection
    rw [entry_eq hn, hcheck]
    exact .refl n k
  | ok p =>
    rcases openConnection_cases hn hcheck relayFor with ⟨e, -, heq⟩ | ⟨conn, -, heq | heq⟩ <;>
      rw [heq]
    · exact .of_spares ((Spares.withEntry n p k).trans (.connect _ p k))
    · exact adds_dial hnew p relayFor conn
    · exact adds_dial_connectionClosed hnew p relayFor conn

/-- A question that is put on a new connection is all that is put there. -/
theorem adds_requestVerification (hn : n.HasCanonicalEntries) (pair : DomainPair) (id key : String)
    (hk : k < (n.requestVerification pair id key).2.sessions.length) :
    ∃ p : DomainPair, Adds n (n.requestVerification pair id key).2 k
      {Stanza.verifyRequest p.own p.peer id key} := by
  cases hcheck : DomainPair.checked pair.own pair.peer n.directory.isServed with
  | error e =>
    have hsame : (n.requestVerification pair id key).2 = n := by
      unfold requestVerification
      rw [entry_eq hn, hcheck]
    rw [hsame] at hk
    exact absurd hk (Nat.not_lt.mpr hnew)
  | ok p =>
    have hp : p.IsCanonical n.directory.isServed := DomainPair.isCanonical_of_checked hcheck
    refine ⟨p, ?_⟩
    -- The peer of a new connection has announced no stream, so the question waits.
    have hasked : ∀ b : Node τ, Adds n b k 0 → b.sessions.length = n.sessions.length + 1 →
        (b.session n.sessions.length).peerStreamId = none →
        k < (b.ask n.sessions.length p id key).sessions.length →
        Adds n (b.ask n.sessions.length p id key) k {Stanza.verifyRequest p.own p.peer id key} := by
      intro b hb hlength hid hk
      rw [length_sessions_ask, hlength] at hk
      obtain rfl : n.sessions.length = k := Nat.le_antisymm hnew (Nat.le_of_lt_succ hk)
      rw [ask_of_unannounced p id key hid]
      have hnoted := Adds.noteQuestion (n := b) (Nat.lt_of_lt_of_eq hk hlength.symm) p id key
      simpa using hb.trans hnoted (view_session_noteQuestion Session.conn (fun _ => rfl)
        (fun _ _ => rfl) key n.sessions.length)
    rw [requestVerification_eq hn hcheck] at hk ⊢
    rcases verifier_cases hn hp with
      ⟨r, husable, hverifier⟩ | ⟨-, ⟨e, -, hverifier⟩ | ⟨conn, -, hverifier | hverifier⟩⟩ <;>
      simp only [hverifier] at hk ⊢
    · exact absurd hk (not_lt_length_of_eq hnew (length_sessions_ask (n.withEntry p) r p id key))
    · exact absurd hk (not_lt_length_of_eq hnew rfl)
    · refine hasked (n.dial p (some p.peer) conn) (adds_dial hnew p _ conn)
        (n.length_sessions_dial p _ conn) ?_ hk
      rw [session_dial, if_pos rfl]
      rfl
    · refine hasked ((n.dial p (some p.peer) conn).connectionClosed conn)
        (adds_dial_connectionClosed hnew p _ conn) ?_ ?_ hk
      · rw [length_sessions_connectionClosed (n.find?_dial_self p _ conn)]
        exact n.length_sessions_dial p _ conn
      · rw [view_session_connectionClosed (n.find?_dial_self p _ conn) Session.peerStreamId
          fun _ => rfl, session_dial, if_pos rfl]
        rfl

theorem adds_receiveKey (hn : n.HasCanonicalEntries) (j : SessionKey) (pair : DomainPair)
    (stanza : Element) (hk : k < (n.receiveKey j pair stanza).sessions.length) :
    ∃ (p : DomainPair) (id key : String),
      Adds n (n.receiveKey j pair stanza) k {Stanza.verifyRequest p.own p.peer id key} := by
  let waiting := n.alter j (·.setPhase .awaitingVerify)
  have hwaiting : (waiting.session k).waiting = (n.session k).waiting :=
    view_session_alter Session.waiting
      (Session.view_setPhase Session.waiting (fun _ _ => rfl) .awaitingVerify) n j k
  have hnew' : waiting.sessions.length ≤ k := by simpa [waiting] using hnew
  rcases receiveKey_cases n j pair stanza with
    ⟨-, heq⟩ | ⟨-, -, heq⟩ | ⟨-, -, heq | heq⟩ <;> rw [heq] at hk ⊢
  · exact absurd hk (not_lt_length_of_eq hnew rfl)
  · exact absurd hk (not_lt_length_of_eq hnew (length_sessions_failStream n j _ false))
  · obtain ⟨p, hadds⟩ := adds_requestVerification hnew' hn pair (n.session j).streamId
      (Text.trim (stanza.cdata.getD "")) hk
    exact ⟨p, _, _, hadds.of_before hwaiting rfl⟩
  · obtain ⟨p, hadds⟩ := adds_requestVerification hnew' hn pair (n.session j).streamId
      (Text.trim (stanza.cdata.getD "")) hk
    exact ⟨p, _, _, (hadds.of_before hwaiting rfl).spares (.refuseKey _ j k pair _)⟩

/-- At most a question is put on a relay by the event for which it is opened. -/
theorem adds_step_of_new (hn : n.WellFormed) (settings : Settings)
    (hrelay : ((n.step (Chain.standard settings) event).session k).isRelay) :
    ∃ asked : Multiset Element, asked.card ≤ 1 ∧ (∀ e ∈ asked, Stanza.IsQuestion e) ∧
      Adds n (n.step (Chain.standard settings) event) k asked := by
  have hk := lt_length_of_isRelay hrelay
  obtain ⟨b, p, relayFor, hopens⟩ :=
    (step_moves hn settings event).opens_of_isRelay hnew hrelay
  have hquestion : ∀ (p : DomainPair) (id key : String),
      Adds n (n.step (Chain.standard settings) event) k {Stanza.verifyRequest p.own p.peer id key} →
      ∃ asked : Multiset Element, asked.card ≤ 1 ∧ (∀ e ∈ asked, Stanza.IsQuestion e) ∧
        Adds n (n.step (Chain.standard settings) event) k asked := by
    refine fun p id key hadds => ⟨_, by simp, fun e he => ?_, hadds⟩
    rw [Multiset.mem_singleton.mp he]
    exact ⟨Stanza.of?_verifyRequest _ _ _ _, Stanza.type_verifyRequest _ _ _ _⟩
  generalize hcause : n.cause event = c at hopens
  cases hopens with
  | caller pair relayFor hcheck =>
    obtain rfl := eq_of_cause_eq_call hcause
    exact ⟨0, by simp, by simp, adds_openConnection hnew hn.entries pair relayFor⟩
  | relay id key hasks =>
    cases hasks with
    | caller pair hcheck =>
      obtain rfl := eq_of_cause_eq_call hcause
      obtain ⟨q, hadds⟩ := adds_requestVerification hnew hn.entries pair id key hk
      exact hquestion q id key hadds
    | presented j stanza _ hkind htype =>
      obtain ⟨conn, rfl, hfind⟩ := exists_of_cause_eq_heard hcause
      cases hnamed : n.directory.pairNamed? stanza with
      | none =>
        obtain ⟨condition, heq | heq⟩ :=
          step_receive_unnamed hn.entries settings hfind hkind hnamed <;> rw [heq] at hk
        · exact absurd hk (not_lt_length_of_eq hnew (length_sessions_failStream n j _ false))
        · exact absurd hk (not_lt_length_of_eq hnew (by simp))
      | some q =>
        have htaken := moves_takeIn_of_heard hn hfind hkind hnamed
        have hreceived := step_receive_key hn settings hfind hkind htype hnamed
        rw [hreceived] at hk
        obtain ⟨r, id, key, hadds⟩ := adds_receiveKey
          (by rwa [length_sessions_takeIn])
          (Moves.hasCanonicalEntries htaken hn.entries) j stanza.spelled stanza hk
        have hspares := Spares.takeIn n j stanza.spelled q k
        refine hquestion r id key ?_
        rw [hreceived]
        exact hadds.of_before hspares.waiting (log_takeIn n j stanza.spelled q)

end New

/-- Whatever its peer answers on a relay ends it, also an answer that names no pair or that nobody
asked for. -/
theorem isClosing_step_of_answer (hn : n.WellFormed) (settings : Settings) {conn : ConnId}
    {stanza : Element} (hfind : n.find? conn = some k) (hrelay : (n.session k).isRelay)
    (hkind : DialbackKind.of? stanza = some .verify) (htype : (stanza.attr? "type").isSome) :
    ((n.step (Chain.standard settings) (.receive conn stanza)).session k).isClosing := by
  have hk := (hn.live conn k hfind).1
  have hstopped : ∀ {b : Node τ}, k < b.sessions.length → ((b.stop k false).session k).isClosing :=
    fun hlt => (isClosing_stop_iff hlt false k).mpr (Or.inr rfl)
  cases hnamed : n.directory.pairNamed? stanza with
  | none =>
    obtain ⟨condition, heq | heq⟩ :=
      step_receive_unnamed hn.entries settings hfind hkind hnamed <;> rw [heq]
    · exact hstopped hk
    · exact hstopped (Nat.lt_of_lt_of_eq hk (length_sessions_alter n k _).symm)
  | some p =>
    obtain ⟨text, htext⟩ := Option.isSome_iff_exists.mp htype
    have htype' : (stanza.attr? "type").map Verdict.parse = some (.parse text) := by rw [htext]; rfl
    have htaken := moves_takeIn_of_heard hn hfind hkind hnamed
    have hnamed' : (n.takeIn k stanza.spelled p).directory.pairNamed? stanza = some p := by
      rwa [Moves.directory_eq htaken]
    have hrelayed := Relation.ReflTransGen.trans htaken
      (moves_relayVerdict (k := k) hkind htype' hnamed' (isSome_get?_takeIn n k stanza.spelled p))
    rw [step_receive_dialback hn settings hfind hkind hnamed]
    simp only [dispatchDialback, htype', receiveVerifyReply]
    rw [if_pos ((Session.isRelay_eq (Moves.identity_eq hrelayed hk)).trans hrelay)]
    exact hstopped (Nat.lt_of_lt_of_le hk (Moves.length_le hrelayed))

end Relay

end Node

namespace Setup

variable {τ : Type} [Transport τ] (setup : Setup τ)

/-- What the occurrences of a history amount to, where each counts by what it is and what it made of
the node. -/
def total (count : Node τ → Occurrence τ → Node τ → Multiset Element)
    (past : List (Occurrence τ)) : Multiset Element :=
  (past.foldl (fun (sum : Node τ × Multiset Element) o =>
      (setup.next sum.1 o, sum.2 + count sum.1 o (setup.next sum.1 o)))
    (setup.start, 0)).2

def putOn (past : List (Occurrence τ)) (k : SessionKey) : Multiset Element :=
  setup.total (fun n _ m => n.putSince m k) past

def trafficOver (past : List (Occurrence τ)) (k : SessionKey) : Multiset Element :=
  setup.total (fun n o _ =>
    match o with
    | .event event => n.trafficOver k event
    | .drift _ _ => 0) past

theorem total_snoc (count : Node τ → Occurrence τ → Node τ → Multiset Element)
    (past : List (Occurrence τ)) (o : Occurrence τ) :
    setup.total count (past ++ [o]) =
      setup.total count past + count (setup.after past) o (setup.after (past ++ [o])) := by
  have hnode : ∀ (past : List (Occurrence τ)) (sum : Node τ × Multiset Element),
      (past.foldl (fun sum o =>
        (setup.next sum.1 o, sum.2 + count sum.1 o (setup.next sum.1 o))) sum).1 =
        past.foldl setup.next sum.1 := by
    intro past
    induction past with
    | nil => exact fun sum => rfl
    | cons o past ih => exact fun sum => ih _
  rw [total, List.foldl_append, List.foldl_cons, List.foldl_nil, hnode, after_snoc]
  rfl

section Accounts

variable (past : List (Occurrence τ)) (k : SessionKey)

theorem putOn_snoc (o : Occurrence τ) : setup.putOn (past ++ [o]) k =
    setup.putOn past k + (setup.after past).putSince (setup.after (past ++ [o])) k :=
  setup.total_snoc _ past o

theorem trafficOver_event (event : Event) : setup.trafficOver (past ++ [.event event]) k =
    setup.trafficOver past k + (setup.after past).trafficOver k event :=
  setup.total_snoc _ past (.event event)

theorem trafficOver_drift (transport : τ) (pinned : List SessionKey) :
    setup.trafficOver (past ++ [.drift transport pinned]) k = setup.trafficOver past k :=
  (setup.total_snoc _ past (.drift transport pinned)).trans (add_zero _)

end Accounts

variable {past : List (Occurrence τ)} {k : SessionKey}

theorem putOn_eq_zero (hnew : (setup.after past).sessions.length ≤ k) : setup.putOn past k = 0 := by
  induction past using List.reverseRecOn with
  | nil => rfl
  | append_singleton past o ih =>
    have hold : (setup.after past).sessions.length ≤ k := by
      by_contra hlt
      exact Nat.not_le.mpr (setup.identity_append past [o] (Nat.not_le.mp hlt)).1 hnew
    rw [putOn_snoc, ih hold, Node.putSince, if_neg (Nat.not_lt.mpr hnew), add_zero]

/-- At most a question is ever put on a relay but for traffic. -/
theorem putOn_le (hconns : ((setup.after past).sessions.map (·.conn)).Nodup)
    (hrelay : ((setup.after past).session k).isRelay) :
    ∃ asked : Multiset Element, asked.card ≤ 1 ∧ (∀ e ∈ asked, Stanza.IsQuestion e) ∧
      setup.putOn past k ≤ asked + setup.trafficOver past k := by
  induction past using List.reverseRecOn with
  | nil =>
    rw [after, List.foldl_nil, session_start] at hrelay
    cases hrelay
  | append_singleton past o ih =>
    rw [putOn_snoc]
    cases o with
    | drift transport pinned =>
      rw [after_snoc] at hconns hrelay ⊢
      obtain ⟨asked, hcard, hasked, hle⟩ := ih hconns hrelay
      refine ⟨asked, hcard, hasked, ?_⟩
      have hsame :
          Node.Adds (setup.after past)
            (setup.next (setup.after past) (.drift transport pinned)) k 0 :=
        .of_eq rfl rfl
      rw [trafficOver_drift, Multiset.le_zero.mp hsame.putSince_le, add_zero]
      exact hle
    | event event =>
      rw [trafficOver_event]
      by_cases hk : k < (setup.after past).sessions.length
      · have hrelay' : ((setup.after past).session k).isRelay :=
          (Session.isRelay_eq (setup.identity_append past [.event event] hk).2).symm.trans hrelay
        obtain ⟨asked, hcard, hasked, hle⟩ := ih (setup.nodup_conns_of_append hconns) hrelay'
        refine ⟨asked, hcard, hasked, ?_⟩
        rw [after_snoc] at hconns ⊢
        rw [← add_assoc]
        exact add_le_add hle (Node.adds_step_of_isRelay (setup.wellFormed_after past) setup.settings
          hconns hrelay').putSince_le
      · rw [after_snoc] at hrelay ⊢
        obtain ⟨asked, hcard, hasked, hadds⟩ := Node.adds_step_of_new (Nat.not_lt.mp hk)
          (setup.wellFormed_after past) setup.settings hrelay
        refine ⟨asked, hcard, hasked, ?_⟩
        rw [setup.putOn_eq_zero (Nat.not_lt.mp hk), zero_add]
        exact hadds.putSince_le.trans (Multiset.le_add_right _ _)

/-- Traffic was sent over a session at some event that found it to be the way of the pair. -/
theorem exists_send_of_trafficOver (h : setup.trafficOver past k ≠ 0) :
    ∃ before pair stanza rest, past = before ++ .event (.send pair stanza) :: rest ∧
      (setup.after before).route? pair = some k := by
  induction past using List.reverseRecOn with
  | nil => exact absurd rfl h
  | append_singleton past o ih =>
    by_cases hpast : setup.trafficOver past k = 0
    · cases o with
      | drift transport pinned => exact absurd ((setup.trafficOver_drift past k _ _).trans hpast) h
      | event event =>
        rw [trafficOver_event, hpast, zero_add] at h
        cases event with
        | send pair stanza =>
          refine ⟨past, pair, stanza, [], rfl, ?_⟩
          by_contra hroute
          exact h (if_neg hroute)
        | _ => exact absurd rfl h
    · obtain ⟨before, pair, stanza, rest, rfl, hroute⟩ := ih hpast
      exact ⟨before, pair, stanza, rest ++ [o], by simp, hroute⟩

/-- So a relay over which traffic was sent is one that a certificate has made trusted. -/
theorem certifiedBy_of_trafficOver
    (hrelay : ((setup.after past).session k).isRelay) (h : setup.trafficOver past k ≠ 0) :
    ∃ p, setup.CertifiedBy past k p := by
  obtain ⟨before, pair, stanza, rest, rfl, hroute⟩ := setup.exists_send_of_trafficOver h
  have htrusted := (Node.of_route? hroute).2.2.1
  have hk := Node.lt_length_of_route? hroute
  have hrelay' : ((setup.after before).session k).isRelay :=
    (Session.isRelay_eq (setup.identity_append before _ hk).2).symm.trans hrelay
  obtain ⟨earlier, event, mid, features, rfl, hcause⟩ :=
    setup.certifiedBy_of_isRelay hrelay' htrusted
  exact ⟨pair, earlier, event, mid ++ .event (.send pair stanza) :: rest, features, by simp, hcause⟩

/-- A relay asks one question. All that is ever put on it is a question at most, and no key, but for
what callers send as traffic over it; that takes a certificate that made the relay trusted, and a
node that presents no key to such peers. Whatever its peer answers, the relay is torn down. -/
theorem relay_asks_once (hconns : ((setup.after past).sessions.map (·.conn)).Nodup)
    (hrelay : ((setup.after past).session k).isRelay) :
    (∃ asked : Multiset Element, asked.card ≤ 1 ∧ (∀ e ∈ asked, Stanza.IsQuestion e) ∧
      setup.putOn past k ≤ asked + setup.trafficOver past k) ∧
    (setup.trafficOver past k ≠ 0 →
      setup.settings.workaround = false ∧ ∃ p, setup.CertifiedBy past k p) ∧
    ∀ conn stanza, (setup.after past).find? conn = some k →
      DialbackKind.of? stanza = some .verify → (stanza.attr? "type").isSome →
      ((setup.after (past ++ [.event (.receive conn stanza)])).session k).isClosing := by
  refine ⟨setup.putOn_le hconns hrelay, fun htraffic => ?_, fun conn stanza hfind hkind htype => ?_⟩
  · obtain ⟨p, hcertified⟩ := setup.certifiedBy_of_trafficOver hrelay htraffic
    refine ⟨?_, p, hcertified⟩
    obtain ⟨before, event, rest, features, -, -, -, hstands⟩ := hcertified
    exact hstands.workaround
  · rw [after_snoc]
    exact Node.isClosing_step_of_answer (setup.wellFormed_after past) setup.settings hfind hrelay
      hkind htype

/-- A caller's traffic puts a key on a relay that a certificate has made trusted. An answer that
names no pair ends the relay. -/
theorem relay_asks_once_of_certifiedRelay :
    let p : DomainPair := ⟨"b.example", "a.example"⟩
    let key := Stanza.key "b.example" "a.example" "key"
    let past := certifiedRelay ++ [.event (.send p key)]
    let answer : Element :=
      ⟨"db:verify", [("xmlns:db", "jabber:server:dialback"), ("type", "valid")], none, []⟩
    let setup := servedByCertificate
    ((setup.after past).session 0).isRelay ∧ setup.putOn past 0 = {key} ∧
      setup.trafficOver past 0 = {key} ∧ setup.settings.workaround = false ∧
      (∃ q, setup.CertifiedBy past 0 q) ∧
      ((setup.after (past ++ [.event (.receive ⟨1000⟩ answer)])).session 0).isClosing := by
  intro p key past answer setup
  have hrun : ((setup.after past).sessions.map (·.conn)).Nodup ∧
      ((setup.after past).session 0).isRelay ∧ (setup.after past).find? ⟨1000⟩ = some 0 := by
    rw [after_eq_foldl]
    decide +kernel
  have hput : setup.putOn past 0 = {key} := by
    rw [putOn, total, next_eq_act]
    decide +kernel
  have htraffic : setup.trafficOver past 0 = {key} := by
    rw [trafficOver, total, next_eq_act]
    decide +kernel
  obtain ⟨hconns, hrelay, hfind⟩ := hrun
  obtain ⟨-, hcertified, hanswered⟩ := setup.relay_asks_once hconns hrelay
  obtain ⟨hworkaround, hby⟩ := hcertified (by rw [htraffic]; simp)
  exact ⟨hrelay, hput, htraffic, hworkaround, hby,
    hanswered ⟨1000⟩ answer hfind (by decide) (by decide)⟩

end Setup

end Federation
