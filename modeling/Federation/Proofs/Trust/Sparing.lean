import Federation.Proofs.Trust.Delivery
import Federation.Proofs.Trust.Withholding

/-!
What leaves the queue of a session alone. Only three things write the queue of a session: its own
peer's header or features, a pair of the session that becomes trusted, and a question that is put on
it. All other operations neither change what waits there nor write a key or a question on its
connection.
-/

namespace Federation

def Effect.WithoutControl (effects : List Effect) : Prop :=
  ∀ conn batch accepted, Effect.write conn batch accepted ∈ effects →
    ∀ e ∈ batch, ¬ Stanza.IsControl e

namespace Effect.WithoutControl

theorem nil : WithoutControl [] :=
  fun _ _ _ h => by cases h

theorem append {effects later : List Effect} (h : WithoutControl effects)
    (h' : WithoutControl later) : WithoutControl (effects ++ later) :=
  fun conn batch accepted hwrite => (List.mem_append.mp hwrite).elim (h conn batch accepted)
    (h' conn batch accepted)

theorem singleton (conn : ConnId) {stanza : Element} (h : ¬ Stanza.IsControl stanza)
    (accepted : Bool) : WithoutControl [.write conn [stanza] accepted] := by
  intro _ _ _ hwrite e he
  obtain ⟨-, rfl, -⟩ := Effect.write.inj (List.mem_singleton.mp hwrite)
  rwa [List.mem_singleton.mp he]

theorem of_no_write {effects : List Effect}
    (h : ∀ conn batch accepted, Effect.write conn batch accepted ∉ effects) :
    WithoutControl effects :=
  fun conn batch accepted hwrite => absurd hwrite (h conn batch accepted)

end Effect.WithoutControl

namespace Node

variable {τ : Type}

theorem HasOwnConn.alter {n : Node τ} {k : SessionKey} (h : n.HasOwnConn k) {f : Session → Session}
    (hconn : ∀ s, (f s).conn = s.conn) (j : SessionKey) : (n.alter j f).HasOwnConn k :=
  h.of_eq (length_sessions_alter n j f) (view_session_alter Session.conn hconn n j)

/-- An operation spares a session: what waits there stays, and on its connection no key and no
question is written. -/
structure Spares (n m : Node τ) (k : SessionKey) : Prop where
  conn : (m.session k).conn = (n.session k).conn
  waiting : (m.session k).waiting = (n.session k).waiting
  log : ∃ added, m.log = n.log ++ added ∧ ∀ batch accepted,
    Effect.write (n.session k).conn batch accepted ∈ added → ∀ e ∈ batch, ¬ Stanza.IsControl e

namespace Spares

variable {n b m : Node τ} {j k : SessionKey}

theorem releases (h : Spares n m k) : Releases n m k False where
  log := by
    obtain ⟨added, hlog, hother⟩ := h.log
    refine ⟨added, hlog, fun e hcontrol => ?_⟩
    rw [false_and, iff_false, h.conn]
    rintro ⟨batch, accepted, hwrite, he⟩
    exact hother batch accepted hwrite e he hcontrol
  released := False.elim
  held := fun _ _ => by rw [h.waiting]

/-- What an operation writes is no matter of a session if it is neither key nor question. -/
theorem of_log (hsession : m.session k = n.session k) {added : List Effect}
    (hlog : m.log = n.log ++ added) (hother : Effect.WithoutControl added) : Spares n m k :=
  ⟨by rw [hsession], by rw [hsession], added, hlog, fun batch accepted => hother _ batch accepted⟩

theorem refl (n : Node τ) (k : SessionKey) : Spares n n k :=
  of_log rfl (List.append_nil _).symm .nil

theorem trans (h : Spares n b k) (h' : Spares b m k) : Spares n m k where
  conn := h'.conn.trans h.conn
  waiting := h'.waiting.trans h.waiting
  log := by
    obtain ⟨added, hlog, hother⟩ := h.log
    obtain ⟨added', hlog', hother'⟩ := h'.log
    rw [h.conn] at hother'
    refine ⟨added ++ added', by rw [hlog', hlog, List.append_assoc],
      fun batch accepted hwrite => ?_⟩
    exact (List.mem_append.mp hwrite).elim (hother batch accepted) (hother' batch accepted)

theorem alter {f : Session → Session} (hconn : ∀ s, (f s).conn = s.conn)
    (hwaiting : ∀ s, (f s).waiting = s.waiting) (n : Node τ) (j k : SessionKey) :
    Spares n (n.alter j f) k :=
  ⟨view_session_alter Session.conn hconn n j k, view_session_alter Session.waiting hwaiting n j k,
    [], (List.append_nil _).symm, fun _ _ h => by cases h⟩

theorem alter_of_ne (hne : k ≠ j) (n : Node τ) (f : Session → Session) :
    Spares n (n.alter j f) k :=
  of_log (session_alter_of_ne n hne f) (List.append_nil _).symm .nil

theorem setPhase (n : Node τ) (j k : SessionKey) (phase : Phase) :
    Spares n (n.alter j (·.setPhase phase)) k :=
  alter (Session.view_setPhase Session.conn (fun _ _ => rfl) phase)
    (Session.view_setPhase Session.waiting (fun _ _ => rfl) phase) n j k

theorem withEntry (n : Node τ) (p : DomainPair) (k : SessionKey) : Spares n (n.withEntry p) k :=
  of_log rfl (List.append_nil _).symm .nil

theorem arm (n : Node τ) (timeout : Duration) (j k : SessionKey) :
    Spares n (n.arm timeout j) k := by
  have hlog : (n.arm timeout j).log = n.log ++ [.schedule timeout] := rfl
  exact of_log rfl hlog
    (.of_no_write fun _ _ _ h => Effect.noConfusion (List.mem_singleton.mp h))

theorem takeIn (n : Node τ) (j : SessionKey) (spelled p : DomainPair) (k : SessionKey) :
    Spares n (n.takeIn j spelled p) k :=
  ⟨view_session_takeIn n j spelled p Session.conn (fun _ => rfl) (fun _ => rfl) k,
    view_session_takeIn n j spelled p Session.waiting (fun _ => rfl) (fun _ => rfl) k,
    [], by rw [log_takeIn, List.append_nil], fun _ _ h => by cases h⟩

theorem trust (n : Node τ) (p : DomainPair) (j k : SessionKey) : Spares n (n.trust p j) k :=
  ⟨view_session_trust n p j Session.conn (fun _ => rfl) (fun _ => rfl) k,
    view_session_trust n p j Session.waiting (fun _ => rfl) (fun _ => rfl) k,
    [], by rw [log_trust, List.append_nil], fun _ _ h => by cases h⟩

variable [Transport τ]

theorem sendNow (n : Node τ) (j k : SessionKey) {stanza : Element}
    (hother : ¬ Stanza.IsControl stanza) : Spares n (n.sendNow j stanza).2 k := by
  obtain ⟨accepted, hlog⟩ := log_write n (n.session j).conn [stanza]
  exact of_log rfl hlog (.singleton _ hother accepted)

theorem refuseKey (n : Node τ) (j k : SessionKey) (pair : DomainPair) (condition : String) :
    Spares n (n.refuseKey j pair condition) k :=
  sendNow n j k (Stanza.not_isControl_resultReply _ _ _ _)

theorem stop (n : Node τ) (j k : SessionKey) (force : Bool) : Spares n (n.stop j force) k := by
  obtain ⟨more, hlog, hnone⟩ := log_stop n j force
  exact ⟨view_session_stop n Session.conn (fun _ => rfl) j k force,
    view_session_stop n Session.waiting (fun _ => rfl) j k force, more, hlog,
    fun batch accepted hwrite => absurd hwrite (hnone _ batch accepted)⟩

theorem failStream (n : Node τ) (j k : SessionKey) (condition : String) (force : Bool) :
    Spares n (n.failStream j condition force) k :=
  (sendNow n j k (Stanza.not_isControl_streamError condition)).trans (stop _ j k force)

/-- The queue of another session goes to another connection. -/
theorem flush_of_ne (hown : n.HasOwnConn k) (hne : k ≠ j) : Spares n (n.flush j).2 k := by
  have hsession : (n.flush j).2.session k = n.session k := by
    rw [session_flush, if_neg fun h => hne h.1]
  refine ⟨by rw [hsession], by rw [hsession], ?_⟩
  rcases log_flush n j with hlog | ⟨accepted, hlog⟩
  · exact ⟨[], hlog.trans (List.append_nil _).symm, fun _ _ h => by cases h⟩
  · refine ⟨_, hlog, fun batch accepted' hwrite e he => ?_⟩
    obtain ⟨hconn, rfl, -⟩ := Effect.write.inj (List.mem_singleton.mp hwrite)
    have hj := lt_length_of_waiting (List.ne_nil_of_mem he)
    exact absurd (hown.2 j hj hconn.symm).symm hne

/-- A key that is offered on another session goes there too. -/
theorem offerKey_of_ne (hown : n.HasOwnConn k) (hne : k ≠ j) (p : DomainPair) (key : String) :
    Spares n (n.offerKey j p key) k := by
  have hkept : ∀ {m : Node τ} {f : Session → Session}, Spares n m k ∧ m.HasOwnConn k →
      (∀ s, (f s).conn = s.conn) → Spares n (m.alter j f) k ∧ (m.alter j f).HasOwnConn k :=
    fun {m f} hm hconn => ⟨hm.1.trans (.alter_of_ne hne m f), hm.2.alter hconn j⟩
  have hrequest := hkept (f := (·.addKeyRequest p.peer)) ⟨refl n k, hown⟩ fun _ => rfl
  have hqueued := hkept (f := (·.enqueue (Stanza.key p.own p.peer key))) hrequest fun _ => rfl
  obtain ⟨hspares, hown'⟩ := hkept hqueued
    (Session.view_setPhase Session.conn (fun _ _ => rfl) .keySent)
  exact hspares.trans (flush_of_ne hown' hne)

theorem presentKey_of_ne (hown : n.HasOwnConn k) (hne : k ≠ j) : Spares n (n.presentKey j) k := by
  unfold presentKey
  cases hid : (n.session j).peerStreamId with
  | none => simpa only [hid] using failStream n j k _ false
  | some id =>
    cases hpair : (n.session j).pair with
    | none => simpa only [hid, hpair] using failStream n j k _ false
    | some pair =>
      cases hsecret : n.directory.secretFor pair.own with
      | error e => simpa only [hid, hpair, hsecret] using failStream n j k _ false
      | ok secret =>
        have hmethod : Spares n (n.alter j (·.setMethod dialbackMethod)) k := .alter_of_ne hne n _
        have hown' := hown.alter (f := (·.setMethod dialbackMethod)) (fun _ => rfl) j
        simp only [hid, hpair, hsecret]
        split
        · exact (hmethod.trans (.alter_of_ne hne _ _)).trans (flush_of_ne
            (hown'.alter (Session.view_setPhase Session.conn (fun _ _ => rfl) .awaitingVerify) j)
            hne)
        · exact hmethod.trans (offerKey_of_ne hown' hne pair _)

theorem receiveFeatures_of_ne (hn : n.HasCanonicalEntries) (hown : n.HasOwnConn k) (hne : k ≠ j)
    {workaround : Bool} {features : Element} (h : ∀ p, ¬ n.Certified workaround j features p) :
    Spares n (n.receiveFeatures workaround j features).2 k := by
  rcases receiveFeatures_of_not_certified hn h with heq | heq | ⟨condition, heq⟩ | heq <;> rw [heq]
  · exact .refl n k
  · exact .setPhase n j k _
  · exact .failStream n j k _ true
  · exact .presentKey_of_ne hown hne

theorem chain_streamOpened_of_ne (hown : n.HasOwnConn k) (hne : k ≠ j) (settings : Settings)
    (header : StreamHeader) : Spares n ((Chain.standard settings).streamOpened n j header).2 k := by
  rw [standard_eq]
  simp only [Chain.streamOpened, Processor.streamError, Processor.dialback]
  cases (n.session j).role with
  | inbound => exact .setPhase n j k _
  | outbound =>
    simp only
    split
    · exact .setPhase n j k _
    · exact .presentKey_of_ne hown hne

theorem streamOpened_of_ne (hown : n.HasOwnConn k) {conn : ConnId} (hne : n.find? conn ≠ some k)
    (settings : Settings) (header : StreamHeader) :
    Spares n (n.streamOpened (Chain.standard settings) conn header).2 k := by
  cases hfind : n.find? conn with
  | none =>
    simp only [streamOpened, hfind]
    exact .refl n k
  | some j =>
    have hj : k ≠ j := by
      rintro rfl
      exact hne hfind
    cases hrole : (n.session j).role with
    | inbound =>
      have hanswer : Spares n (n.answerHeader (Chain.standard settings) j header).2.2 k ∧
          (n.answerHeader (Chain.standard settings) j header).2.2.HasOwnConn k := by
        obtain heq | ⟨pair, -, heq⟩ :=
          answerHeader_cases (n := n) (Chain.standard settings) j header
        · rw [heq]
          exact ⟨.refl n k, hown⟩
        · rw [heq]
          exact ⟨.alter_of_ne hj n _, hown.alter (f := (·.setPair pair)) (fun _ => rfl) j⟩
      simp only [streamOpened, hfind, hrole]
      rcases hr : n.answerHeader (Chain.standard settings) j header with ⟨text, error, m⟩
      rw [hr] at hanswer
      cases error with
      | some e => exact hanswer.1.trans (.stop m j k false)
      | none => exact hanswer.1.trans (.chain_streamOpened_of_ne hanswer.2 hj settings header)
    | outbound =>
      simp only [streamOpened, hfind, hrole]
      cases header.id with
      | none => exact .chain_streamOpened_of_ne hown hj settings header
      | some id =>
        exact (Spares.alter_of_ne hj n (·.setPeerStreamId id)).trans (.chain_streamOpened_of_ne
          (hown.alter (f := (·.setPeerStreamId id)) (fun _ => rfl) j) hj settings header)

omit [Transport τ] in
theorem connectionClosed_of_ne {conn : ConnId} (hne : n.find? conn ≠ some k) :
    Spares n (n.connectionClosed conn) k := by
  cases hfind : n.find? conn with
  | none =>
    simp only [connectionClosed, hfind]
    exact .refl n k
  | some j =>
    refine of_log ?_ (log_connectionClosed.trans (List.append_nil _).symm) .nil
    rw [session_connectionClosed hfind, if_neg]
    rintro ⟨rfl, -⟩
    exact hne hfind

omit [Transport τ] in
theorem noteQuestion_of_ne (hne : k ≠ j) (p : DomainPair) (id key : String) :
    Spares n (n.noteQuestion j p id key) k :=
  of_log (session_noteQuestion_of_ne hne p id key) (List.append_nil _).symm .nil

theorem ask_of_ne (hown : n.HasOwnConn k) (hne : k ≠ j) (p : DomainPair) (id key : String) :
    Spares n (n.ask j p id key) k := by
  have hnoted : Spares n (n.noteQuestion j p id key) k := noteQuestion_of_ne hne p id key
  unfold ask
  split
  · refine hnoted.trans
      (flush_of_ne (hown.of_eq (length_sessions_noteQuestion n j p id key) ?_) hne)
    exact view_session_noteQuestion Session.conn (fun _ => rfl) (fun _ _ => rfl) key
  · exact hnoted

theorem connect (n : Node τ) (p : DomainPair) (k : SessionKey) : Spares n (n.connect p).2 k :=
  of_log rfl (log_connect n p)
    (.of_no_write fun _ _ _ h => Effect.noConfusion (List.mem_singleton.mp h))

section Dial

variable (hk : k < n.sessions.length) (p : DomainPair) (relayFor : Option String) (conn : ConnId)

include hk

/-- A new connection has a new session. -/
theorem dial : Spares n (n.dial p relayFor conn) k :=
  of_log ((session_dial n p relayFor conn k).trans (if_neg (Nat.ne_of_lt hk)))
    (log_dial n p relayFor conn)
    (.of_no_write fun _ _ _ h => Effect.noConfusion (List.mem_singleton.mp h))

theorem dial_connectionClosed : Spares n ((n.dial p relayFor conn).connectionClosed conn) k := by
  refine (dial hk p relayFor conn).trans (connectionClosed_of_ne ?_)
  rw [n.find?_dial_self p relayFor conn]
  exact fun h => Nat.ne_of_lt hk (Option.some.inj h).symm

end Dial

variable (hn : n.HasCanonicalEntries) (pair : DomainPair)

include hn

theorem openConnection (hk : k < n.sessions.length) (relayFor : Option String) :
    Spares n (n.openConnection pair relayFor).2 k := by
  cases hcheck : DomainPair.checked pair.own pair.peer n.directory.isServed with
  | error e =>
    unfold Node.openConnection
    rw [entry_eq hn, hcheck]
    exact .refl n k
  | ok p =>
    rcases openConnection_cases hn hcheck relayFor with ⟨e, -, heq⟩ | ⟨conn, -, heq | heq⟩ <;>
      rw [heq]
    · exact (withEntry n p k).trans (connect _ p k)
    · exact dial hk p relayFor conn
    · exact dial_connectionClosed hk p relayFor conn

/-- A question that goes over another connection, or over a relay of its own. -/
theorem requestVerification_of_ne (hown : n.HasOwnConn k) (id key : String)
    (hne : ∀ p, DomainPair.checked pair.own pair.peer n.directory.isServed = .ok p →
      n.usableOutgoing? p ≠ some k) :
    Spares n (n.requestVerification pair id key).2 k := by
  cases hcheck : DomainPair.checked pair.own pair.peer n.directory.isServed with
  | error e =>
    unfold Node.requestVerification
    rw [entry_eq hn, hcheck]
    exact .refl n k
  | ok p =>
    have hp : p.IsCanonical n.directory.isServed := DomainPair.isCanonical_of_checked hcheck
    have hnew : k ≠ n.sessions.length := Nat.ne_of_lt hown.1
    -- The peer of a new connection has announced no stream, so the question waits.
    have hasked : ∀ m : Node τ, Spares n m k → (m.session n.sessions.length).peerStreamId = none →
        Spares n (m.ask n.sessions.length p id key) k := by
      intro m hm hid
      rw [ask_of_unannounced p id key hid]
      exact hm.trans (noteQuestion_of_ne hnew p id key)
    have hdialled : ∀ conn, ((n.dial p (some p.peer) conn).session
        n.sessions.length).peerStreamId = none := fun conn => by
      rw [session_dial, if_pos rfl]
      rfl
    rw [requestVerification_eq hn hcheck]
    rcases verifier_cases hn hp with
      ⟨r, husable, hverifier⟩ | ⟨-, ⟨e, -, hverifier⟩ | ⟨conn, -, hverifier | hverifier⟩⟩ <;>
      simp only [hverifier]
    · have hr : k ≠ r := by
        rintro rfl
        exact hne p hcheck husable
      exact (withEntry n p k).trans
        (ask_of_ne (n := n.withEntry p) (hown.of_eq rfl fun _ => rfl) hr p id key)
    · exact (withEntry n p k).trans (connect _ p k)
    · exact hasked (n.dial p (some p.peer) conn) (dial hown.1 p _ conn) (hdialled conn)
    · refine hasked ((n.dial p (some p.peer) conn).connectionClosed conn)
        (dial_connectionClosed hown.1 p _ conn) ?_
      rw [view_session_connectionClosed (n.find?_dial_self p _ conn) Session.peerStreamId
        fun _ => rfl]
      exact hdialled conn

/-- A key that is refused, or that is asked about elsewhere. -/
theorem receiveKey_of_ne (hown : n.HasOwnConn k) (j : SessionKey) (stanza : Element)
    (hne : ¬ (n.demandsTls ((n.session j).pairOr pair) ∧ (n.session j).tlsActive = false) →
      Text.trim (stanza.cdata.getD "") ≠ "" → ∀ p,
      DomainPair.checked pair.own pair.peer n.directory.isServed = .ok p →
      (n.alter j (·.setPhase .awaitingVerify)).usableOutgoing? p ≠ some k) :
    Spares n (n.receiveKey j pair stanza) k := by
  let key := Text.trim (stanza.cdata.getD "")
  by_cases hdemands : n.demandsTls ((n.session j).pairOr pair) ∧ (n.session j).tlsActive = false
  · rw [receiveKey_of_demandsTls hdemands.1 hdemands.2]
    exact refuseKey n j k pair _
  · by_cases hblank : key = ""
    · rw [receiveKey_of_blank hdemands hblank]
      exact failStream n j k _ false
    · have hasked := (setPhase n j k .awaitingVerify).trans (requestVerification_of_ne
        (n := n.alter j (·.setPhase .awaitingVerify)) hn pair
        (hown.alter (Session.view_setPhase Session.conn (fun _ _ => rfl) .awaitingVerify) j)
        (n.session j).streamId key (hne hdemands hblank))
      rw [receiveKey_of_allowed hdemands hblank]
      rcases hr : (n.alter j (·.setPhase .awaitingVerify)).requestVerification pair
        (n.session j).streamId key with ⟨outcome, m⟩
      rw [hr] at hasked
      simp only [key] at hr
      cases outcome with
      | ok _ => simpa only [hr] using hasked
      | error e => simpa only [hr] using hasked.trans (refuseKey m j k pair _)

omit hn in
theorem answerVerify (n : Node τ) (j k : SessionKey) (pair : DomainPair) (stanza : Element) :
    Spares n (n.answerVerify j pair stanza) k := by
  unfold Node.answerVerify
  split
  · exact failStream n j k _ false
  · exact sendNow n j k (Stanza.not_isControl_verifyReply _ _ _ _)

omit hn in
/-- An answer that finds a key wrong is passed on. -/
theorem receiveVerifyReply {verdict : Verdict} (hverdict : verdict ≠ .valid) (n : Node τ)
    (j k : SessionKey) (pair : DomainPair) (stanza : Element) :
    Spares n (n.receiveVerifyReply j pair stanza verdict) k := by
  have hrelayed : Spares n (n.relayVerdict j pair stanza verdict) k := by
    unfold relayVerdict
    split
    · exact refl n k
    · rename_i id _
      split
      · exact refl n k
      · have hdropped : Spares n (n.alter j (·.dropVerifyRequest pair.peer id)) k :=
          alter (f := (·.dropVerifyRequest pair.peer id)) (fun _ => rfl) (fun _ => rfl) n j k
        simp only [hverdict, decide_false, Bool.false_eq_true, if_false]
        cases (n.alter j (·.dropVerifyRequest pair.peer id)).incomingByStream? pair id with
        | none => exact hdropped
        | some t => exact hdropped.trans (sendNow _ t k (Stanza.not_isControl_resultReply _ _ _ _))
  unfold Node.receiveVerifyReply
  simp only
  split
  · exact hrelayed.trans (stop _ j k false)
  · exact hrelayed

omit hn in
theorem receiveVerdict {verdict : Verdict} (hverdict : verdict ≠ .valid) (n : Node τ)
    (j k : SessionKey) (pair : DomainPair) : Spares n (n.receiveVerdict j pair verdict) k := by
  cases verdict with
  | valid => exact absurd rfl hverdict
  | invalid => exact stop n j k false
  | error => exact stop n j k false

omit hn in
theorem advance (n : Node τ) (k : SessionKey) (milliseconds : Nat) :
    Spares n (n.advance milliseconds) k := by
  have hexpired : ∀ (alarms : List Alarm) (m : Node τ),
      Spares m (alarms.foldl (fun n alarm => n.expire alarm.session) m) k := by
    intro alarms
    induction alarms with
    | nil => exact fun m => refl m k
    | cons alarm rest ih =>
      intro m
      refine Spares.trans ?_ (ih (m.expire alarm.session))
      unfold expire
      split
      · exact stop m alarm.session k true
      · exact refl m k
  have hticked : ∀ kept, Spares n { n.tick milliseconds with alarms := kept } k := fun _ =>
    of_log rfl (List.append_nil _).symm .nil
  exact (hticked _).trans (hexpired _ _)

end Spares

structure PutsOn [Transport τ] (n : Node τ) (k : SessionKey) (p : DomainPair) (id key : String)
    (event : Event) : Prop where
  asks : Asks n p id key (n.cause event)
  allowed : ∀ j stanza, n.cause event = .heard j stanza →
    ¬ (n.demandsTls ((n.session j).pairOr stanza.spelled) ∧ (n.session j).tlsActive = false)
  carrier : n.usableOutgoing? p = some k

/-- A question is put on a session. It waits there behind what waits already, or all of that is
written if the peer of the session has announced its stream. -/
structure Carried (n m : Node τ) (k : SessionKey) (question : Element) : Prop where
  queued : (n.session k).peerStreamId = none →
    (m.session k).waiting = (n.session k).waiting ++ [question] ∧
      ∃ more, m.log = n.log ++ more ∧ Effect.WithoutControl more
  written : (n.session k).peerStreamId.isSome →
    (m.session k).waiting = [] ∧ ∃ accepted more, m.log = n.log ++
      .write (n.session k).conn ((n.session k).waiting ++ [question]) accepted :: more ∧
        Effect.WithoutControl more

namespace Carried

variable {n b m : Node τ} {k : SessionKey} {question : Element}

theorem append (h : Carried n b k question)
    (hwaiting : (m.session k).waiting = (b.session k).waiting) {more : List Effect}
    (hlog : m.log = b.log ++ more) (hother : Effect.WithoutControl more) :
    Carried n m k question where
  queued := by
    intro hid
    obtain ⟨hqueued, added, hadded, hadded'⟩ := h.queued hid
    refine ⟨hwaiting.trans hqueued, added ++ more, ?_, hadded'.append hother⟩
    rw [hlog, hadded, List.append_assoc]
  written := by
    intro hid
    obtain ⟨hflushed, accepted, added, hadded, hadded'⟩ := h.written hid
    refine ⟨hwaiting.trans hflushed, accepted, added ++ more, ?_, hadded'.append hother⟩
    rw [hlog, hadded, List.append_assoc, List.cons_append]

theorem of_eq (h : Carried b m k question)
    (hid : (b.session k).peerStreamId = (n.session k).peerStreamId)
    (hwaiting : (b.session k).waiting = (n.session k).waiting)
    (hconn : (b.session k).conn = (n.session k).conn) (hlog : b.log = n.log) :
    Carried n m k question := by
  obtain ⟨hqueued, hwritten⟩ := h
  rw [hid, hwaiting, hlog] at hqueued hwritten
  rw [hconn] at hwritten
  exact ⟨hqueued, hwritten⟩

variable [Transport τ]

theorem ask (hk : k < n.sessions.length) (p : DomainPair) (id key : String) :
    Carried n (n.ask k p id key) k (Stanza.verifyRequest p.own p.peer id key) where
  queued := by
    intro hid
    rw [ask_of_unannounced p id key hid]
    exact ⟨waiting_noteQuestion hk p id key, [], (List.append_nil _).symm, .nil⟩
  written := by
    intro hid
    obtain ⟨accepted, hlog⟩ := log_ask_of_announced p id key hk hid
    refine ⟨?_, accepted, [], hlog, .nil⟩
    rw [Node.ask, if_pos hid, session_flush, if_pos ⟨rfl, by simpa using hk⟩]
    rfl

theorem requestVerification (hn : n.HasCanonicalEntries) (hk : k < n.sessions.length)
    {pair p : DomainPair}
    (hcheck : DomainPair.checked pair.own pair.peer n.directory.isServed = .ok p)
    (husable : n.usableOutgoing? p = some k) (id key : String) :
    Carried n (n.requestVerification pair id key).2 k
      (Stanza.verifyRequest p.own p.peer id key) := by
  rw [requestVerification_eq hn hcheck]
  simp only [verifier_of_usable husable]
  exact (ask (n := n.withEntry p) hk p id key).of_eq rfl rfl rfl rfl

end Carried

section Step

variable [Transport τ] {n : Node τ} (hn : n.WellFormed) (hbound : n.Bound) (settings : Settings)
  {k : SessionKey}

include hn hbound

theorem PutsOn.carried {event : Event} {p : DomainPair} {id key : String}
    (h : PutsOn n k p id key event) :
    Carried n (n.step (Chain.standard settings) event) k
      (Stanza.verifyRequest p.own p.peer id key) := by
  obtain ⟨hasks, hallowed, hcarrier⟩ := h
  have hk : k < n.sessions.length := by
    obtain ⟨-, opened, hopened, -⟩ := (Carries.usable hcarrier).peer hbound
    exact lt_length_of_pair hopened
  generalize hcause : n.cause event = c at hasks hallowed
  cases hasks with
  | caller pair hcheck =>
    obtain rfl := eq_of_cause_eq_call hcause
    exact .requestVerification hn.entries hk hcheck hcarrier id key
  | presented j stanza hj hkind htype hnamed hid hkey hblank =>
    obtain ⟨conn, rfl, hfind⟩ := exists_of_cause_eq_heard hcause
    subst hid hkey
    have hweigh := moves_weigh hn hfind hkind hnamed
    have hasked : Carried n ((n.weigh j stanza.spelled p).requestVerification p
        (n.session j).streamId (Text.trim (stanza.cdata.getD ""))).2 k
        (Stanza.verifyRequest p.own p.peer (n.session j).streamId
          (Text.trim (stanza.cdata.getD ""))) := by
      refine (Carried.requestVerification (Moves.hasCanonicalEntries hweigh hn.entries)
        (by rwa [length_sessions_weigh]) ?_ ((usableOutgoing?_weigh n j _ p p).trans hcarrier) _
        _).of_eq ?_ (waiting_weigh n j _ p k) (conn_weigh n j _ p k) (log_weigh n j _ p)
      · rw [Moves.directory_eq hweigh]
        exact Directory.isCanonical_of_pairNamed? hnamed
      · exact view_session_weigh n j _ p Session.peerStreamId (fun _ => rfl) (fun _ => rfl)
          (fun _ _ => rfl) k
    rw [step_receive_allowed_key hn settings hfind hkind htype hnamed (hallowed j stanza rfl)
      hblank]
    rcases hr : (n.weigh j stanza.spelled p).requestVerification p (n.session j).streamId
      (Text.trim (stanza.cdata.getD "")) with ⟨outcome, m⟩
    rw [hr] at hasked
    cases outcome with
    | ok _ => exact hasked
    | error e =>
      obtain ⟨accepted, hlog⟩ := log_write m (m.session j).conn
        [Stanza.refusal stanza.spelled "remote-server-not-found"]
      exact hasked.append rfl hlog
        (.singleton _ (Stanza.not_isControl_resultReply _ _ _ _) accepted)

/-- Another dialback stanza that makes no session trusted leaves the queue of a session alone. -/
theorem releases_receive_dialback (hown : n.HasOwnConn k) {conn : ConnId} {j : SessionKey}
    {stanza : Element} {kind : DialbackKind} (hfind : n.find? conn = some j)
    (hkind : DialbackKind.of? stanza = some kind)
    (hearns : ∀ p i, ¬ Earns settings.workaround n p i (.heard j stanza))
    (hasks : ∀ p id key, ¬ PutsOn n k p id key (.receive conn stanza)) :
    Releases n (n.step (Chain.standard settings) (.receive conn stanza)) k False := by
  cases hnamed : n.directory.pairNamed? stanza with
  | none =>
    obtain ⟨condition, heq | heq⟩ := step_receive_unnamed hn.entries settings hfind hkind hnamed <;>
      rw [heq]
    · exact (Spares.failStream n j k condition false).releases
    · have hadopted : Spares n (n.alter j (·.adoptPair stanza.spelled)) k :=
        .alter (f := (·.adoptPair stanza.spelled)) (fun _ => rfl) (fun _ => rfl) n j k
      exact (hadopted.trans (.failStream _ j k condition false)).releases
  | some p =>
    by_cases htype : stanza.attr? "type" = some "valid"
    · exact releases_of_unearned_answer hn hbound settings hfind hkind htype hearns
    have hnot : ∀ verdict, (stanza.attr? "type").map Verdict.parse = some verdict →
        verdict ≠ .valid := by
      rintro _ hverdict rfl
      obtain ⟨text, htext, hvalid⟩ := Option.map_eq_some_iff.mp hverdict
      rw [Verdict.parse_eq_valid hvalid] at htext
      exact htype htext
    have htaken := Spares.takeIn n j stanza.spelled p k
    rw [step_receive_dialback hn settings hfind hkind hnamed]
    unfold dispatchDialback
    split
    · rename_i hnone
      have htype : stanza.attr? "type" = none := Option.map_eq_none_iff.mp hnone
      have hmoves := moves_takeIn_of_heard hn hfind hkind hnamed
      refine (htaken.trans (.receiveKey_of_ne (Moves.hasCanonicalEntries hmoves hn.entries) _
        (hown.of_eq (length_sessions_takeIn n j _ p) (view_session_takeIn n j _ p Session.conn
          (fun _ => rfl) fun _ => rfl)) j stanza fun hallowed hblank q hcheck => ?_)).releases
      obtain rfl : q = p := by
        rw [Moves.directory_eq hmoves, (checked_of_pairNamed? hnamed).2.2] at hcheck
        exact (Except.ok.inj hcheck).symm
      rw [pairOr_takeIn, demandsTls_takeIn, tlsActive_takeIn] at hallowed
      intro hcarrier
      have hcause : n.cause (.receive conn stanza) = .heard j stanza := by simp only [cause, hfind]
      refine hasks q (n.session j).streamId (Text.trim (stanza.cdata.getD "")) ⟨?_, ?_, ?_⟩
      · rw [hcause]
        exact .presented j stanza (hn.live conn j hfind).1 hkind htype hnamed rfl rfl hblank
      · rw [hcause]
        rintro i heard heq
        obtain ⟨rfl, rfl⟩ := Cause.heard.inj heq
        exact hallowed
      · rw [← usableOutgoing?_weigh n j stanza.spelled q]
        exact hcarrier
    · rename_i verdict hverdict
      exact (htaken.trans (.receiveVerdict (hnot verdict hverdict) _ j k p)).releases
    · exact (htaken.trans (.answerVerify _ j k _ stanza)).releases
    · rename_i verdict hverdict
      exact (htaken.trans (.receiveVerifyReply (hnot verdict hverdict) _ j k p stanza)).releases

/-- Any other event leaves the queue of a session alone, unless its peer sends its header
or its features. -/
theorem releases_of_not_putsOn {event : Event} (hown : n.HasOwnConn k)
    (hsend : ∀ pair stanza, event ≠ .send pair stanza)
    (hheader : ∀ conn header, event = .streamOpened conn header → n.find? conn ≠ some k)
    (hfeatures : ∀ conn stanza, event = .receive conn stanza → Stanza.isStreamFeatures stanza →
      n.find? conn ≠ some k)
    (hearns : ∀ p i, ¬ Earns settings.workaround n p i (n.cause event))
    (hasks : ∀ p id key, ¬ PutsOn n k p id key event) :
    Releases n (n.step (Chain.standard settings) event) k False := by
  cases event with
  | accept conn address =>
    exact (Spares.of_log (m := (n.accept conn address).2) (session_addSession_of_lt hown.1 _)
      (List.append_nil _).symm .nil).releases
  | openConnection pair relayFor =>
    exact (Spares.openConnection hn.entries pair hown.1 relayFor).releases
  | serviceStarted conn =>
    simp only [step, serviceStarted]
    cases hfind : n.find? conn with
    | none => exact (Spares.refl n k).releases
    | some j =>
      simp only [standard_eq]
      exact (Spares.arm n settings.authTimeout j k).releases
  | streamOpened conn header =>
    exact (Spares.streamOpened_of_ne hown (hheader conn header rfl) settings header).releases
  | receive conn stanza =>
    cases hfind : n.find? conn with
    | none =>
      simp only [step, receive, hfind]
      exact (Spares.refl n k).releases
    | some j =>
      have hcause : n.cause (.receive conn stanza) = .heard j stanza := by simp only [cause, hfind]
      rw [hcause] at hearns
      cases hkind : DialbackKind.of? stanza with
      | some kind =>
        exact releases_receive_dialback hn hbound settings hown hfind hkind hearns hasks
      | none =>
        rw [step_receive_other settings hfind hkind]
        split
        · exact (Spares.stop n j k false).releases
        · split
          · rename_i hheard
            refine (Spares.receiveFeatures_of_ne hn.entries hown ?_ fun p hcertified => ?_).releases
            · rintro rfl
              exact hfeatures conn stanza rfl hheard.2 hfind
            · exact hearns p j (.certificate j stanza hheard.2 hheard.1 hcertified)
          · exact (Spares.refl n k).releases
  | tlsCompleted conn trust =>
    simp only [step, tlsCompleted]
    split
    · exact (Spares.alter (f := (·.recordTls trust)) (fun _ => rfl) (fun _ => rfl) n _ k).releases
    · exact (Spares.refl n k).releases
  | connectionClosed conn =>
    by_cases hfind : n.find? conn = some k
    · -- What waits on its own connection is dropped with it.
      refine ⟨⟨[], log_connectionClosed.trans (List.append_nil _).symm, fun e _ => ?_⟩, False.elim,
        fun _ hlive => ?_⟩
      · simp
      · exact absurd (hn.live conn k hfind).2 (of_isLive_connectionClosed hfind hlive).2
    · exact (Spares.connectionClosed_of_ne hfind).releases
  | send pair stanza => exact absurd rfl (hsend pair stanza)
  | requestVerification pair id key =>
    refine (Spares.requestVerification_of_ne hn.entries pair hown id key
      fun p hcheck hcarrier => ?_).releases
    exact hasks p id key ⟨.caller pair hcheck, fun _ _ => Cause.noConfusion, hcarrier⟩
  | advance milliseconds => exact (Spares.advance n k milliseconds).releases

end Step

end Node

end Federation
