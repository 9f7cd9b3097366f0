import Federation.Proofs.Trust.Exchange
import Federation.Proofs.Trust.Lifetime

/-!
What becomes of a key that a peer presents. The peer's authoritative server is asked about it, or
the key is refused, and one of the two in each case but one: a relay that dies before it is
registered is taken for one that can be asked, so that the question waits on it for ever and nobody
is told.
-/

namespace Federation

/-- A transport that keeps connections up also when it refuses others. -/
structure Transport.Withstands {τ : Type} [Transport τ] (up : τ → ConnId → Prop) : Prop
    extends Transport.KeepsUp up where
  refuse : ∀ {t conn}, up t conn → ∀ {pair e},
    (Transport.connect t pair).1 = .error e → up (Transport.connect t pair).2 conn

theorem Simulated.withstands :
    Transport.Withstands fun (t : Simulated) conn => t.isOpen conn = true where
  toKeepsUp := keepsUp
  refuse := by
    intro t conn h pair e hrefused
    show (t.connect pair).2.isOpen conn
    replace hrefused : (t.connect pair).1 = .error e := hrefused
    unfold connect at hrefused ⊢
    cases hmode : t.mode with
    | refuse => exact h
    | succeed => simp [hmode] at hrefused
    | dieAtOnce => simp [hmode] at hrefused

/-- While there is a receiver, a channel refuses no connection. -/
theorem Channel.withstands : Transport.Withstands fun (t : Channel) conn =>
    t.isOpen conn = true ∧ t.isReceiving = true where
  toKeepsUp := keepsUp
  refuse := by
    rintro t conn ⟨hopen, hreceiving⟩ pair e hrefused
    replace hrefused : (t.connect pair).1 = .error e := hrefused
    rw [connect, if_pos hreceiving] at hrefused
    cases hrefused

namespace Node

variable {τ : Type}

/-- A question about a key is on its way. A session that is there and was opened for the
peer carries it: it is the last that waits there, or that was written there, and no other
queue has changed. -/
structure Forwards (n m : Node τ) (p : DomainPair) (id key : String) (r : SessionKey) : Prop where
  live : m.IsLive r
  role : (m.session r).role = .outbound
  peer : ∃ opened, (m.session r).pair = some opened ∧ opened.peer = p.peer
  recorded : (m.session r).hasVerifyRequest p.peer id
  once :
    let batch := (n.session r).waiting ++ [Stanza.verifyRequest p.own p.peer id key]
    ((m.log = n.log ∨ m.log = n.log ++ [.connect p (some (m.session r).conn)]) ∧
        (m.session r).waiting = batch) ∨
      m.log = n.log ++ [.write (m.session r).conn batch true] ∧ (m.session r).waiting = []
  others : ∀ j, j ≠ r → (m.session j).waiting = (n.session j).waiting

/-- A key is turned down. The peer that presented it is told so, and nothing else was taken by the
transport or has got into a queue. -/
structure TurnsDown (n m : Node τ) (k : SessionKey) (pair : DomainPair) (condition : String) :
    Prop where
  log : ∃ added, m.log =
      n.log ++ added ++ [.write (n.session k).conn [Stanza.refusal pair condition] true] ∧
    ∀ conn batch, Effect.write conn batch true ∉ added
  waiting : ∀ j, (m.session j).waiting = (n.session j).waiting ∨ (m.session j).waiting = []

/-- A question about a key gets lost. It waits on a session that was opened for it and whose
connection has ended, and nothing was written. -/
structure Loses (n m : Node τ) (p : DomainPair) (id key : String) : Prop where
  log : ∃ conn, m.log = n.log ++ [.connect p (some conn)]
  dead : ¬ m.IsLive n.sessions.length
  closing : (m.session n.sessions.length).isClosing
  waiting : (m.session n.sessions.length).waiting = [Stanza.verifyRequest p.own p.peer id key]
  others : ∀ j, j ≠ n.sessions.length → (m.session j).waiting = (n.session j).waiting

section Exclusion

variable {n m : Node τ} {p pair : DomainPair} {id key condition : String} {k r : SessionKey}

theorem log_ne_of_turnsDown (h : TurnsDown n m k pair condition) {last : List Effect}
    (hlast : ∀ effect ∈ last, effect ≠
      .write (n.session k).conn [Stanza.refusal pair condition] true) : m.log ≠ n.log ++ last := by
  obtain ⟨added, hlog, -⟩ := h.log
  intro heq
  rw [hlog, List.append_assoc, List.append_cancel_left_eq] at heq
  exact hlast _ (heq ▸ List.mem_append_right _ (List.mem_singleton_self _)) rfl

theorem Forwards.not_turnsDown (h : Forwards n m p id key r) :
    ¬ TurnsDown n m k pair condition := by
  intro hdown
  rcases h.once with ⟨hsame | hopened, -⟩ | ⟨hwritten, -⟩
  · exact log_ne_of_turnsDown hdown (fun _ h => by cases h) (hsame.trans (List.append_nil _).symm)
  · refine log_ne_of_turnsDown hdown (fun effect heffect => ?_) hopened
    rw [List.mem_singleton.mp heffect]
    exact Effect.noConfusion
  · refine log_ne_of_turnsDown hdown (fun effect heffect heq => ?_) hwritten
    rw [List.mem_singleton.mp heffect] at heq
    obtain ⟨-, hbatch, -⟩ := Effect.write.inj heq
    have hquestion : Stanza.verifyRequest p.own p.peer id key = Stanza.refusal pair condition := by
      rw [← List.mem_singleton, ← hbatch]
      exact List.mem_append_right _ (List.mem_singleton_self _)
    have htype := congrArg (·.attr? "type") hquestion
    simp [Stanza.type_verifyRequest, Stanza.refusal, Stanza.type_resultReply] at htype

/-- One session carries the question. -/
theorem Forwards.unique {j : SessionKey} (h : Forwards n m p id key r)
    (h' : Forwards n m p id key j) : j = r := by
  have hlonger : ∀ (waiting : List Element) (e : Element), waiting ≠ waiting ++ [e] :=
    fun waiting e heq => List.cons_ne_nil e [] (List.append_right_eq_self.mp heq.symm)
  by_contra hne
  rcases h.once with ⟨-, hwaiting⟩ | ⟨hlog, -⟩
  · rw [h'.others r (Ne.symm hne)] at hwaiting
    exact hlonger _ _ hwaiting
  · rcases h'.once with ⟨-, hwaiting⟩ | ⟨hlog', -⟩
    · rw [h.others j hne] at hwaiting
      exact hlonger _ _ hwaiting
    · -- Both are the session of the connection on which the question was written.
      rw [hlog, List.append_cancel_left_eq] at hlog'
      obtain ⟨hconn, -⟩ := Effect.write.inj (List.singleton_inj.mp hlog')
      have hfound := h'.live
      rw [IsLive, ← hconn, h.live] at hfound
      exact hne (Option.some.inj hfound).symm

theorem Loses.not_turnsDown (h : Loses n m p id key) : ¬ TurnsDown n m k pair condition := by
  intro hdown
  obtain ⟨conn, hlog⟩ := h.log
  refine log_ne_of_turnsDown hdown (fun effect heffect => ?_) hlog
  rw [List.mem_singleton.mp heffect]
  exact Effect.noConfusion

theorem Loses.not_forwards (h : Loses n m p id key) : ¬ Forwards n m p id key r := by
  intro hforwards
  rcases hforwards.once with ⟨-, hwaiting⟩ | ⟨hwritten, -⟩
  · have hne : r ≠ n.sessions.length := by
      rintro rfl
      exact h.dead hforwards.live
    rw [h.others r hne] at hwaiting
    exact List.append_ne_nil_of_right_ne_nil [] (List.cons_ne_nil _ _)
      (List.append_right_eq_self.mp hwaiting.symm)
  · obtain ⟨conn, hlog⟩ := h.log
    rw [hlog, List.append_cancel_left_eq] at hwritten
    cases hwritten

end Exclusion

section Noted

variable {n : Node τ} {r : SessionKey}

theorem hasVerifyRequest_noteQuestion (hr : r < n.sessions.length) (p : DomainPair)
    (id key : String) : ((n.noteQuestion r p id key).session r).hasVerifyRequest p.peer id := by
  rw [session_noteQuestion_self hr]
  refine (Session.hasVerifyRequest_addVerifyRequest (n.session r) p.peer p.peer id id).trans ?_
  simp

theorem isLive_noteQuestion (p : DomainPair) (id key : String) (j : SessionKey) :
    (n.noteQuestion r p id key).IsLive j ↔ n.IsLive j := by
  rw [IsLive, IsLive, find?_noteQuestion,
    view_session_noteQuestion Session.conn (fun _ => rfl) fun _ _ => rfl]

end Noted

section Request

variable [Transport τ] {n : Node τ} {p : DomainPair} (id key : String)

variable (hn : n.HasCanonicalEntries)

include hn

/-- A request is the same for every spelling of its pair. -/
theorem requestVerification_of_checked {pair : DomainPair}
    (hcheck : DomainPair.checked pair.own pair.peer n.directory.isServed = .ok p) :
    n.requestVerification pair id key = n.requestVerification p id key := by
  have hp : DomainPair.checked p.own p.peer n.directory.isServed = .ok p :=
    DomainPair.isCanonical_of_checked hcheck
  unfold requestVerification
  rw [entry_eq hn, entry_eq hn, hcheck, hp]

variable (hp : p.IsCanonical n.directory.isServed)

include hp

/-- The transport refuses the relay that it would take. -/
theorem requestVerification_of_refused (hnone : n.usableOutgoing? p = none) {e : TransportError}
    (hrefused : (Transport.connect n.transport p).1 = .error e) :
    n.requestVerification p id key = (.error (.transport e), ((n.withEntry p).connect p).2) := by
  have hcheck : DomainPair.checked p.own p.peer n.directory.isServed = .ok p := hp
  have hverifier := (verifier_of_none hn hp hnone).trans
    (openConnection_of_refused (some p.peer) hn hcheck hrefused)
  unfold requestVerification
  rw [entry_eq hn, hcheck]
  simp only [hverifier]

/-- A relay that is dead from the start is taken for one that can be asked. -/
theorem requestVerification_of_dead (hnone : n.usableOutgoing? p = none) {conn : ConnId}
    (hconn : (Transport.connect n.transport p).1 = .ok conn)
    (hdead : Transport.isOpen (Transport.connect n.transport p).2 conn = false) :
    n.requestVerification p id key = (.ok (), ((n.dial p (some p.peer) conn).connectionClosed
      conn).noteQuestion n.sessions.length p id key) := by
  have hverifier := (verifier_of_none hn hp hnone).trans
    (openConnection_of_dead (some p.peer) hn hp hconn hdead)
  have hfind := n.find?_dial_self p (some p.peer) conn
  have hunannounced : (((n.dial p (some p.peer) conn).connectionClosed conn).session
      n.sessions.length).peerStreamId = none := by
    rw [view_session_connectionClosed hfind Session.peerStreamId fun _ => rfl, session_dial,
      if_pos rfl]
    rfl
  rw [requestVerification_of_verifier id key hn hp hverifier, hunannounced]
  rfl

end Request

section Carriage

variable [Transport τ]

/-- A request fails: the transport took nothing, no queue got anything, and the connections that the
transport keeps up are up. -/
structure Fails (n m : Node τ) : Prop where
  log : ∃ added, m.log = n.log ++ added ∧ ∀ conn batch, Effect.write conn batch true ∉ added
  waiting : ∀ j, (m.session j).waiting = (n.session j).waiting ∨ (m.session j).waiting = []
  conn : ∀ j, (m.session j).conn = (n.session j).conn
  up : ∀ {up : τ → ConnId → Prop}, Transport.Withstands up → ∀ conn, up n.transport conn →
    up m.transport conn

section Congruence

variable {n b m : Node τ} {p : DomainPair} {id key : String} {r : SessionKey}
  (hlog : b.log = n.log) (hwaiting : ∀ j, (b.session j).waiting = (n.session j).waiting)

include hlog hwaiting

omit [Transport τ] in
theorem Forwards.of_eq (h : Forwards b m p id key r) : Forwards n m p id key r where
  live := h.live
  role := h.role
  peer := h.peer
  recorded := h.recorded
  once := by
    rw [← hlog, ← hwaiting]
    exact h.once
  others := fun j hj => (h.others j hj).trans (hwaiting j)

omit [Transport τ] in
theorem Loses.of_eq (h : Loses b m p id key) (hlength : b.sessions.length = n.sessions.length) :
    Loses n m p id key where
  log := by
    rw [← hlog]
    exact h.log
  dead := hlength ▸ h.dead
  closing := hlength ▸ h.closing
  waiting := hlength ▸ h.waiting
  others := fun j hj => (h.others j (hlength ▸ hj)).trans (hwaiting j)

theorem Fails.of_eq (h : Fails b m) (hconn : ∀ j, (b.session j).conn = (n.session j).conn)
    (htransport : b.transport = n.transport) : Fails n m where
  log := by
    rw [← hlog]
    exact h.log
  waiting := fun j => hwaiting j ▸ h.waiting j
  conn := fun j => (h.conn j).trans (hconn j)
  up := fun hup conn h' => h.up hup conn (htransport ▸ h')

end Congruence

section Flush

omit [Transport τ] in
theorem lt_length_of_waiting {n : Node τ} {k : SessionKey} (h : (n.session k).waiting ≠ []) :
    k < n.sessions.length := by
  by_contra hge
  rw [session_of_length_le (Nat.not_lt.mp hge)] at h
  exact h rfl

variable {n : Node τ} {k : SessionKey} (hwaiting : (n.session k).waiting ≠ [])

include hwaiting

theorem flush_of_ok
    (hwrite : (Transport.write n.transport (n.session k).conn (n.session k).waiting).1 = .ok ()) :
    (n.flush k).1 = .ok (n.session k).waiting.length ∧ (n.flush k).2.log =
      n.log ++ [.write (n.session k).conn (n.session k).waiting true] := by
  rw [log_flush_eq hwaiting]
  simp only [flush, List.isEmpty_iff, hwaiting, if_false, write, record]
  exact ⟨congrArg (Except.map _) hwrite, by rw [hwrite]; rfl⟩

theorem flush_of_error {e : TransportError}
    (hwrite : (Transport.write n.transport (n.session k).conn (n.session k).waiting).1 = .error e) :
    (n.flush k).1 = .error e ∧ (n.flush k).2.log =
      n.log ++ [.write (n.session k).conn (n.session k).waiting false] := by
  rw [log_flush_eq hwaiting]
  simp only [flush, List.isEmpty_iff, hwaiting, if_false, write, record]
  exact ⟨congrArg (Except.map _) hwrite, by rw [hwrite]; rfl⟩

end Flush

section Carrier

variable {n : Node τ} {p : DomainPair} {r : SessionKey} (id key : String) (hlive : n.IsLive r)
  (hrole : (n.session r).role = .outbound)
  (hpeer : ∃ opened, (n.session r).pair = some opened ∧ opened.peer = p.peer)

include hlive hrole hpeer

omit [Transport τ] in
/-- The question waits on a session for a peer that has announced nothing yet. -/
theorem forwards_noteQuestion : Forwards n (n.noteQuestion r p id key) p id key r := by
  obtain ⟨opened, hopened, hpeer⟩ := hpeer
  have hr := lt_length_of_pair hopened
  have hview : ∀ {α : Type} (view : Session → α),
      (∀ s, view (s.addVerifyRequest p.peer id) = view s) →
      (∀ (s : Session) (stanza : Element), view (s.enqueue stanza) = view s) →
      view ((n.noteQuestion r p id key).session r) = view (n.session r) :=
    fun view hrequest hqueue => view_session_noteQuestion view hrequest hqueue key r
  refine ⟨?_, ?_, ⟨opened, ?_, hpeer⟩, hasVerifyRequest_noteQuestion hr p id key,
    Or.inl ⟨Or.inl rfl, waiting_noteQuestion hr p id key⟩, fun j hj => ?_⟩
  · exact (isLive_noteQuestion p id key r).mpr hlive
  · exact (hview Session.role (fun _ => rfl) fun _ _ => rfl).trans hrole
  · exact (hview Session.pair (fun _ => rfl) fun _ _ => rfl).trans hopened
  · rw [session_noteQuestion_of_ne hj]

/-- It is written with what waits if the peer has announced its stream, and else lost with it. -/
theorem forwards_or_fails_flush (hr : r < n.sessions.length) :
    (∃ written, ((n.noteQuestion r p id key).flush r).1 = .ok written ∧
        Forwards n ((n.noteQuestion r p id key).flush r).2 p id key r) ∨
      ∃ e, ((n.noteQuestion r p id key).flush r).1 = .error e ∧
        Fails n ((n.noteQuestion r p id key).flush r).2 := by
  have hforwards := forwards_noteQuestion id key hlive hrole hpeer
  have hbatch := waiting_noteQuestion hr p id key
  have hlog := log_noteQuestion n r p id key
  have htransport := transport_noteQuestion n r p id key
  have hconns : ∀ j, ((n.noteQuestion r p id key).session j).conn = (n.session j).conn :=
    view_session_noteQuestion Session.conn (fun _ => rfl) (fun _ _ => rfl) key
  generalize n.noteQuestion r p id key = noted at *
  have hwaiting : (noted.session r).waiting ≠ [] := by simp [hbatch]
  have hview : ∀ {α : Type} (view : Session → α), (∀ s, view s.clearQueue = view s) →
      ∀ j, view ((noted.flush r).2.session j) = view (noted.session j) :=
    fun view hview => view_session_flush noted view hview r
  have hconns' := hview Session.conn fun _ => rfl
  have hothers : ∀ j, j ≠ r → (noted.flush r).2.session j = noted.session j := fun j hj => by
    rw [session_flush, if_neg fun h => hj h.1]
  have hflushed : ((noted.flush r).2.session r).waiting = [] := by
    rw [session_flush]
    split
    · rfl
    · rename_i hold
      exact absurd ⟨rfl, lt_length_of_waiting hwaiting⟩ hold
  cases hwrite : (Transport.write noted.transport (noted.session r).conn
      (noted.session r).waiting).1 with
  | ok _ =>
    obtain ⟨hok, hwritten⟩ := flush_of_ok hwaiting hwrite
    rw [hbatch, hlog, ← hconns'] at hwritten
    refine Or.inl ⟨_, hok, ?_, ?_, ?_, ?_, Or.inr ⟨hwritten, hflushed⟩, fun j hj => ?_⟩
    · rw [IsLive, hconns', find?, live_flush]
      exact hforwards.live
    · exact (hview Session.role (fun _ => rfl) r).trans hforwards.role
    · rw [hview Session.pair fun _ => rfl]
      exact hforwards.peer
    · exact (hview (·.hasVerifyRequest p.peer id) (fun _ => rfl) r).trans hforwards.recorded
    · rw [hothers j hj, hforwards.others j hj]
  | error e =>
    obtain ⟨herror, hrejected⟩ := flush_of_error hwaiting hwrite
    rw [hlog] at hrejected
    refine Or.inr ⟨e, herror, ⟨_, hrejected, fun conn batch h => ?_⟩, fun j => ?_, fun j => ?_, ?_⟩
    · cases List.mem_singleton.mp h
    · by_cases hj : j = r
      · exact Or.inr (hj ▸ hflushed)
      · exact Or.inl (by rw [hothers j hj, hforwards.others j hj])
    · exact (hconns' j).trans (hconns j)
    · intro up hup conn h
      rw [← htransport] at h
      exact up_flush hup.toKeepsUp h r

end Carrier

end Carriage

section Outcome

variable [Transport τ]

/-- There is no open link over which the peer of a pair can be asked, and the relay that is opened
for it is dead when it is registered. -/
def RelayDies (n : Node τ) (p : DomainPair) : Prop :=
  n.usableOutgoing? p = none ∧ ∃ conn, (Transport.connect n.transport p).1 = .ok conn ∧
    Transport.isOpen (Transport.connect n.transport p).2 conn = false

variable {n : Node τ} (hn : n.HasCanonicalEntries) {p : DomainPair}
  (hp : p.IsCanonical n.directory.isServed) (id key : String)

include hn hp

theorem loses_of_relayDies (h : n.RelayDies p) :
    ∃ m, n.requestVerification p id key = (.ok (), m) ∧ Loses n m p id key := by
  obtain ⟨hnone, conn, hconn, hdead⟩ := h
  let dialled := n.dial p (some p.peer) conn
  have hfind : dialled.find? conn = some n.sessions.length := n.find?_dial_self p _ conn
  have hlength : n.sessions.length < dialled.sessions.length :=
    Nat.lt_of_lt_of_eq (Nat.lt_succ_self _) (n.length_sessions_dial p _ conn).symm
  have hopened : dialled.session n.sessions.length =
      (Session.opened conn p (some p.peer) n.nextIdentifier).join p :=
    (n.session_dial p _ conn _).trans (if_pos rfl)
  generalize hended : dialled.connectionClosed conn = ended
  have hlength' : n.sessions.length < ended.sessions.length := by
    rwa [← hended, length_sessions_connectionClosed hfind]
  have hclosed : ended.session n.sessions.length =
      (dialled.session n.sessions.length).beginClose.clearQueue := by
    rw [← hended, session_connectionClosed hfind, if_pos ⟨rfl, hlength⟩]
  have hlog : ended.log = n.log ++ [.connect p (some conn)] := by
    rw [← hended, log_connectionClosed, log_dial]
    simp only [connect, hconn]
    rfl
  have hrequest := requestVerification_of_dead id key hn hp hnone hconn hdead
  rw [hended] at hrequest
  refine ⟨_, hrequest, ⟨conn, hlog⟩, ?_, ?_, ?_, ?_⟩
  · rw [isLive_noteQuestion, ← hended]
    intro hlive
    exact (of_isLive_connectionClosed hfind hlive).2 (congrArg Session.conn hopened)
  · rw [view_session_noteQuestion Session.isClosing (fun _ => rfl) fun _ _ => rfl, hclosed]
    rfl
  · rw [waiting_noteQuestion hlength', hclosed]
    rfl
  · intro j hj
    rw [session_noteQuestion_of_ne hj, ← hended, session_connectionClosed hfind,
      if_neg fun h => hj h.1, session_dial, if_neg hj]

section Carrier

variable {r : SessionKey} (hbound : n.Bound) (husable : n.usableOutgoing? p = some r)
  (hlive : n.IsLive r)

include hbound husable hlive

/-- Over an open link the question is on its way, unless the transport does not take it. -/
theorem forwards_or_fails_of_usable :
    (∃ m, n.requestVerification p id key = (.ok (), m) ∧ Forwards n m p id key r) ∨
      ∃ e m, n.requestVerification p id key = (.error e, m) ∧ Fails n m := by
  obtain ⟨hrole, opened, hopened, hpeer⟩ := (Carries.usable husable).peer hbound
  have hrequest := requestVerification_of_verifier id key hn hp (verifier_of_usable husable)
  split at hrequest
  · rcases forwards_or_fails_flush (n := n.withEntry p) id key hlive hrole
      ⟨opened, hopened, hpeer⟩ (lt_length_of_pair hopened) with
      ⟨written, hok, hforwards⟩ | ⟨e, herror, hfails⟩
    · rw [hok] at hrequest
      exact Or.inl ⟨_, hrequest, hforwards.of_eq (b := n.withEntry p) rfl fun _ => rfl⟩
    · rw [herror] at hrequest
      exact Or.inr ⟨_, _, hrequest, hfails.of_eq (b := n.withEntry p) rfl (fun _ => rfl)
        (fun _ => rfl) rfl⟩
  · have hforwards := forwards_noteQuestion (n := n.withEntry p) id key hlive hrole
      ⟨opened, hopened, hpeer⟩
    exact Or.inl ⟨_, hrequest, hforwards.of_eq (b := n.withEntry p) rfl fun _ => rfl⟩

end Carrier

/-- Over a relay that is not dead from the start the question is on its way, unless the transport
refuses the relay. -/
theorem forwards_or_fails_over_relay (hnone : n.usableOutgoing? p = none)
    (hnot : ¬ n.RelayDies p) :
    (∃ m, n.requestVerification p id key = (.ok (), m) ∧
        Forwards n m p id key n.sessions.length) ∨
      ∃ e m, n.requestVerification p id key = (.error e, m) ∧ Fails n m := by
  cases hconn : (Transport.connect n.transport p).1 with
  | error e =>
    refine Or.inr ⟨_, _, requestVerification_of_refused id key hn hp hnone hconn, ?_, ?_, ?_, ?_⟩
    · refine ⟨_, log_connect _ p, fun conn batch h => ?_⟩
      exact Effect.noConfusion (List.mem_singleton.mp h)
    · exact fun j => Or.inl rfl
    · exact fun j => rfl
    · exact fun hup conn h => hup.refuse h hconn
  | ok conn =>
    have hopen : Transport.isOpen (Transport.connect n.transport p).2 conn := by
      by_contra hdead
      exact hnot ⟨hnone, conn, hconn, by simpa using hdead⟩
    have hlength : n.sessions.length < (n.dial p (some p.peer) conn).sessions.length :=
      Nat.lt_of_lt_of_eq (Nat.lt_succ_self _) (n.length_sessions_dial p _ conn).symm
    have hopened : (n.dial p (some p.peer) conn).session n.sessions.length =
        (Session.opened conn p (some p.peer) n.nextIdentifier).join p :=
      (n.session_dial p _ conn _).trans (if_pos rfl)
    have hconn' : ((n.dial p (some p.peer) conn).session n.sessions.length).conn = conn :=
      congrArg Session.conn hopened
    have hlive : (n.dial p (some p.peer) conn).IsLive n.sessions.length := by
      rw [IsLive, hconn']
      exact n.find?_dial_self p _ conn
    have hforwards := forwards_noteQuestion id key hlive (congrArg Session.role hopened)
      ⟨p, congrArg Session.pair hopened, rfl⟩
    refine Or.inl ⟨_, requestVerification_over_relay hn hp hnone hconn hopen id
      key, hforwards.live, hforwards.role, hforwards.peer, hforwards.recorded,
      Or.inl ⟨Or.inr ?_, ?_⟩, fun j hj => ?_⟩
    · rw [view_session_noteQuestion Session.conn (fun _ => rfl) fun _ _ => rfl, hconn',
        log_noteQuestion, log_dial]
      simp only [connect, hconn]
      rfl
    · rw [waiting_noteQuestion hlength, hopened, session_of_length_le (Nat.le_refl _)]
      rfl
    · rw [session_noteQuestion_of_ne hj, session_dial, if_neg hj]

end Outcome

section Weigh

def weigh (n : Node τ) (k : SessionKey) (spelled p : DomainPair) : Node τ :=
  (n.takeIn k spelled p).alter k (·.setPhase .awaitingVerify)

variable (n : Node τ) (k : SessionKey) (spelled p : DomainPair)

theorem view_session_weigh {α : Type} (view : Session → α)
    (hadopt : ∀ s, view (s.adoptPair spelled) = view s) (hjoin : ∀ s, view (s.join p) = view s)
    (hphase : ∀ (s : Session) (phase : Phase), view { s with phase := phase } = view s)
    (j : SessionKey) : view ((n.weigh k spelled p).session j) = view (n.session j) :=
  view_session_takeIn_alter n k spelled p view hadopt hjoin (Session.view_setPhase view hphase _) j

theorem waiting_weigh (j : SessionKey) :
    ((n.weigh k spelled p).session j).waiting = (n.session j).waiting :=
  view_session_weigh n k spelled p Session.waiting (fun _ => rfl) (fun _ => rfl) (fun _ _ => rfl) j

theorem conn_weigh (j : SessionKey) :
    ((n.weigh k spelled p).session j).conn = (n.session j).conn :=
  view_session_weigh n k spelled p Session.conn (fun _ => rfl) (fun _ => rfl) (fun _ _ => rfl) j

theorem log_weigh : (n.weigh k spelled p).log = n.log :=
  log_takeIn n k spelled p

theorem transport_weigh : (n.weigh k spelled p).transport = n.transport :=
  transport_takeIn n k spelled p

theorem length_sessions_weigh : (n.weigh k spelled p).sessions.length = n.sessions.length := by
  rw [weigh, length_sessions_alter, length_sessions_takeIn]

theorem isLive_weigh (j : SessionKey) : (n.weigh k spelled p).IsLive j ↔ n.IsLive j := by
  have hlive : (n.weigh k spelled p).live = n.live := live_takeIn n k spelled p
  rw [IsLive, IsLive, conn_weigh, find?, find?, hlive]

variable [Transport τ]

/-- Whom a question would go over does not depend on the key. -/
theorem usableOutgoing?_weigh (q : DomainPair) :
    (n.weigh k spelled p).usableOutgoing? q = n.usableOutgoing? q := by
  have hview : ∀ {α : Type} (view : Session → α), (∀ s, view (s.adoptPair spelled) = view s) →
      (∀ s, view (s.join p) = view s) →
      (∀ (s : Session) (phase : Phase), view { s with phase := phase } = view s) →
      ∀ j, view ((n.weigh k spelled p).session j) = view (n.session j) :=
    fun view hadopt hjoin hphase => view_session_weigh n k spelled p view hadopt hjoin hphase
  have hcarriers : (n.weigh k spelled p).carriers q = n.carriers q :=
    carriers_congr (outgoingKeys_takeIn n k spelled p q)
      (fun j _ => ⟨hview Session.isRelay (fun _ => rfl) (fun _ => rfl) (fun _ _ => rfl) j,
        hview Session.isClosing (fun _ => rfl) (fun _ => rfl) (fun _ _ => rfl) j,
        conn_weigh n k spelled p j⟩) (transport_weigh n k spelled p)
  have htrusted : ∀ j, ((n.weigh k spelled p).session j).isTrustedFor q =
      (n.session j).isTrustedFor q :=
    hview (·.isTrustedFor q) (fun _ => rfl) (fun _ => rfl) fun _ _ => rfl
  simp only [usableOutgoing?, hcarriers, htrusted]

theorem relayDies_weigh (q : DomainPair) :
    (n.weigh k spelled p).RelayDies q ↔ n.RelayDies q := by
  rw [RelayDies, RelayDies, usableOutgoing?_weigh, transport_weigh]

variable {n k p} {conn : ConnId} {stanza : Element} (hn : n.WellFormed) (settings : Settings)
  (hfind : n.find? conn = some k) (hkind : DialbackKind.of? stanza = some .result)
  (htype : stanza.attr? "type" = none) (hnamed : n.directory.pairNamed? stanza = some p)

include hn hfind hkind hnamed

theorem moves_weigh : Moves (.heard k stanza) n (n.weigh k stanza.spelled p) := by
  have hlive : n.find? (n.session k).conn = some k := by rw [(hn.live conn k hfind).2, hfind]
  exact .tail (moves_takeIn hlive (by rw [hkind]; rfl) hnamed stanza.spelled)
    (.remark k _ (.phase _ rfl))

include htype

/-- A key that passes the policy is asked about, and refused if that fails. -/
theorem step_receive_allowed_key
    (hallowed : ¬ (n.demandsTls ((n.session k).pairOr stanza.spelled) ∧
      (n.session k).tlsActive = false))
    (hblank : Text.trim (stanza.cdata.getD "") ≠ "") :
    n.step (Chain.standard settings) (.receive conn stanza) =
      match (n.weigh k stanza.spelled p).requestVerification p (n.session k).streamId
        (Text.trim (stanza.cdata.getD "")) with
      | (.ok _, m) => m
      | (.error _, m) => m.refuseKey k stanza.spelled "remote-server-not-found" := by
  have hweigh := moves_weigh hn hfind hkind hnamed
  have hcheck : DomainPair.checked stanza.spelled.own stanza.spelled.peer
      (n.weigh k stanza.spelled p).directory.isServed = .ok p := by
    rw [Moves.directory_eq hweigh]
    exact (checked_of_pairNamed? hnamed).2.2
  have hstream : ((n.takeIn k stanza.spelled p).session k).streamId = (n.session k).streamId :=
    view_session_takeIn n k _ p Session.streamId (fun _ => rfl) (fun _ => rfl) k
  rw [step_receive_key hn settings hfind hkind htype hnamed, ← requestVerification_of_checked _ _
    (Moves.hasCanonicalEntries hweigh hn.entries) hcheck]
  have hallowed' : ¬ ((n.takeIn k stanza.spelled p).demandsTls
      (((n.takeIn k stanza.spelled p).session k).pairOr stanza.spelled) ∧
        ((n.takeIn k stanza.spelled p).session k).tlsActive = false) := by
    rw [pairOr_takeIn, demandsTls_takeIn, tlsActive_takeIn]
    exact hallowed
  rw [receiveKey_of_allowed hallowed' hblank, hstream]
  rfl

omit [Transport τ] hn hfind hkind htype hnamed in
/-- The peer hears of a request that failed if its connection is kept up. -/
theorem Fails.turnsDown [Transport τ] {m : Node τ} (h : Fails n m) {up : τ → ConnId → Prop}
    (hup : Transport.Withstands up) (hopen : up n.transport (n.session k).conn) (pair : DomainPair)
    (condition : String) : TurnsDown n (m.refuseKey k pair condition) k pair condition := by
  obtain ⟨added, hlog, hnone⟩ := h.log
  refine ⟨⟨added, ?_, hnone⟩, h.waiting⟩
  have hopen' : up m.transport (m.session k).conn := by
    rw [h.conn]
    exact h.up hup _ hopen
  have hsaid : (m.refuseKey k pair condition).log = m.log ++ _ :=
    log_write_of_up hup.toKeepsUp hopen' [Stanza.refusal pair condition]
  rwa [h.conn, hlog] at hsaid

section Answer

variable (hallowed : ¬ (n.demandsTls ((n.session k).pairOr stanza.spelled) ∧
    (n.session k).tlsActive = false))
  (hblank : Text.trim (stanza.cdata.getD "") ≠ "")

include hallowed hblank

/-- Over a relay that dies a key that passes the policy is lost. -/
theorem loses_key (hdies : n.RelayDies p) :
    Loses n (n.step (Chain.standard settings) (.receive conn stanza)) p (n.session k).streamId
      (Text.trim (stanza.cdata.getD "")) := by
  have hweigh := moves_weigh hn hfind hkind hnamed
  have hp : p.IsCanonical (n.weigh k stanza.spelled p).directory.isServed := by
    rw [Moves.directory_eq hweigh]
    exact Directory.isCanonical_of_pairNamed? hnamed
  obtain ⟨m, hrequest, hloses⟩ :=
    loses_of_relayDies (Moves.hasCanonicalEntries hweigh hn.entries) hp
      (n.session k).streamId (Text.trim (stanza.cdata.getD ""))
      ((relayDies_weigh n k _ p p).mpr hdies)
  rw [step_receive_allowed_key hn settings hfind hkind htype hnamed hallowed hblank, hrequest]
  exact hloses.of_eq (log_weigh n k _ p) (waiting_weigh n k _ p) (length_sessions_weigh n k _ p)

/-- Else it is forwarded, or it is turned down if the connection on which it came is kept up. -/
theorem forwards_or_turnsDown (hbound : n.Bound) (hcoherent : n.Coherent)
    (hdies : ¬ n.RelayDies p) {up : τ → ConnId → Prop} (hup : Transport.Withstands up)
    (hopen : up n.transport conn) :
    let m := n.step (Chain.standard settings) (.receive conn stanza)
    (∃ r, Forwards n m p (n.session k).streamId (Text.trim (stanza.cdata.getD "")) r) ∨
      TurnsDown n m k stanza.spelled "remote-server-not-found" := by
  intro m
  let key := Text.trim (stanza.cdata.getD "")
  have hweigh := moves_weigh hn hfind hkind hnamed
  have hentries := Moves.hasCanonicalEntries hweigh hn.entries
  have hp : p.IsCanonical (n.weigh k stanza.spelled p).directory.isServed := by
    rw [Moves.directory_eq hweigh]
    exact Directory.isCanonical_of_pairNamed? hnamed
  have hrequest : (∃ b r, (n.weigh k stanza.spelled p).requestVerification p (n.session k).streamId
        key = (.ok (), b) ∧
        Forwards (n.weigh k stanza.spelled p) b p (n.session k).streamId key r) ∨
      ∃ e b, (n.weigh k stanza.spelled p).requestVerification p (n.session k).streamId key =
        (.error e, b) ∧ Fails (n.weigh k stanza.spelled p) b := by
    cases husable : n.usableOutgoing? p with
    | some r =>
      have hlive := hcoherent.isLive_of_mem_linkKeys (mem_linkKeys_of_usableOutgoing? husable)
      rw [← usableOutgoing?_weigh n k stanza.spelled p] at husable
      rw [← isLive_weigh n k stanza.spelled p] at hlive
      refine (forwards_or_fails_of_usable hentries hp _ key (Moves.bound hweigh hbound) husable
        hlive).imp_left ?_
      rintro ⟨b, hok, hforwards⟩
      exact ⟨b, r, hok, hforwards⟩
    | none =>
      rw [← usableOutgoing?_weigh n k stanza.spelled p] at husable
      refine (forwards_or_fails_over_relay hentries hp _ key husable
        (mt (relayDies_weigh n k _ p p).mp hdies)).imp_left ?_
      rintro ⟨b, hok, hforwards⟩
      exact ⟨b, _, hok, hforwards⟩
  have hstep := step_receive_allowed_key hn settings hfind hkind htype hnamed hallowed hblank
  rcases hrequest with ⟨b, r, hok, hforwards⟩ | ⟨e, b, herror, hfails⟩
  · rw [hok] at hstep
    refine Or.inl ⟨r, ?_⟩
    rw [show m = b from hstep]
    exact hforwards.of_eq (log_weigh n k _ p) (waiting_weigh n k _ p)
  · rw [herror] at hstep
    refine Or.inr ?_
    rw [show m = b.refuseKey k stanza.spelled "remote-server-not-found" from hstep]
    refine (hfails.of_eq (log_weigh n k _ p) (waiting_weigh n k _ p) (conn_weigh n k _ p)
      (transport_weigh n k _ p)).turnsDown hup ?_ _ _
    rwa [(hn.live conn k hfind).2]

end Answer

end Weigh

end Node

namespace Setup

variable {τ : Type} [Transport τ] (setup : Setup τ)

/-- A key that a peer presents and that passes the policy is forwarded over one session or is turned
down, and not both, unless the relay that is opened for it dies before it is registered. Then it is
neither: the question is lost, and nobody is told. -/
theorem presented_key_answered_unless_relay_dies {up : τ → ConnId → Prop}
    (hup : Transport.Withstands up) {past : List (Occurrence τ)}
    (hconns : ((setup.after past).sessions.map (·.conn)).Nodup) {conn : ConnId} {s : SessionKey}
    {stanza : Element} {p : DomainPair} (hfind : (setup.after past).find? conn = some s)
    (hopen : up (setup.after past).transport conn)
    (hkind : DialbackKind.of? stanza = some .result) (htype : stanza.attr? "type" = none)
    (hnamed : setup.directory.pairNamed? stanza = some p)
    (hpolicy : setup.TlsCompleted past s ∨
      ¬ setup.demandsTls (((setup.after past).session s).pairOr stanza.spelled))
    (hblank : Text.trim (stanza.cdata.getD "") ≠ "") :
    let n := setup.after past
    let m := setup.after (past ++ [.event (.receive conn stanza)])
    let forwards := Node.Forwards n m p (n.session s).streamId (Text.trim (stanza.cdata.getD ""))
    let turnsDown := Node.TurnsDown n m s stanza.spelled "remote-server-not-found"
    (¬ n.RelayDies p → Xor (∃! r, forwards r) turnsDown) ∧
      (n.RelayDies p → Node.Loses n m p (n.session s).streamId (Text.trim (stanza.cdata.getD "")) ∧
        (∀ r, ¬ forwards r) ∧ ¬ turnsDown) := by
  intro n m forwards turnsDown
  have hn := setup.wellFormed_after past
  have hnamed' : n.directory.pairNamed? stanza = some p := by rwa [setup.directory_after]
  have hallowed : ¬ (n.demandsTls ((n.session s).pairOr stanza.spelled) ∧
      (n.session s).tlsActive = false) := by
    rintro ⟨hdemands, hinactive⟩
    rw [setup.demandsTls_after] at hdemands
    rcases hpolicy with htls | hlax
    · rw [← setup.tlsActive_iff, hinactive] at htls
      cases htls
    · exact hlax hdemands
  have hm : m = n.step (Chain.standard setup.settings) (.receive conn stanza) :=
    setup.after_snoc past _
  refine ⟨fun hdies => ?_, fun hdies => ?_⟩
  · have hcases := Node.forwards_or_turnsDown hn setup.settings hfind hkind htype hnamed' hallowed
      hblank (setup.bound_after past) (setup.coherent_after hconns) hdies hup hopen
    rw [← hm] at hcases
    rcases hcases with ⟨r, hforwards⟩ | hdown
    · exact Or.inl ⟨⟨r, hforwards, fun j hj => hforwards.unique hj⟩, hforwards.not_turnsDown⟩
    · exact Or.inr ⟨hdown, fun ⟨r, hforwards, _⟩ => Node.Forwards.not_turnsDown hforwards hdown⟩
  · have hloses := Node.loses_key hn setup.settings hfind hkind htype hnamed' hallowed hblank hdies
    rw [← hm] at hloses
    exact ⟨hloses, fun r => hloses.not_forwards, hloses.not_turnsDown⟩

def servedByDeadRelays : Setup Simulated :=
  { served with transport := { mode := .dieAtOnce } }

/-- The key of a peer is presented there. -/
theorem presented_key_lost_over_dead_relay :
    let past : List (Occurrence Simulated) := [.event (.accept ⟨1⟩ "192.0.2.1")]
    let n := servedByDeadRelays.after past
    let m := servedByDeadRelays.after
      (past ++ [.event (.receive ⟨1⟩ (Stanza.key "a.example" "b.example" "key"))])
    n.RelayDies ⟨"b.example", "a.example"⟩ ∧
      Node.Loses n m ⟨"b.example", "a.example"⟩ (identifierText 1) "key" ∧
      (∀ r, ¬ Node.Forwards n m ⟨"b.example", "a.example"⟩ (identifierText 1) "key" r) ∧
      ¬ Node.TurnsDown n m 0 ⟨"b.example", "a.example"⟩ "remote-server-not-found" := by
  intro past n m
  let stanza := Stanza.key "a.example" "b.example" "key"
  have hrun : n.find? ⟨1⟩ = some 0 ∧ Transport.isOpen n.transport ⟨1⟩ ∧
      (n.sessions.map (·.conn)).Nodup ∧ (n.session 0).streamId = identifierText 1 ∧
      n.usableOutgoing? ⟨"b.example", "a.example"⟩ = none := by
    simp only [n, past]
    rw [after_eq_foldl]
    decide +kernel
  have hstanza : servedByDeadRelays.directory.pairNamed? stanza =
        some ⟨"b.example", "a.example"⟩ ∧ stanza.spelled = ⟨"b.example", "a.example"⟩ ∧
      Text.trim (stanza.cdata.getD "") = "key" ∧
      ¬ servedByDeadRelays.demandsTls ((n.session 0).pairOr stanza.spelled) := by
    simp only [n, past]
    rw [after_eq_foldl]
    decide +kernel
  obtain ⟨hfind, hopen, hconns, hstream, hnone⟩ := hrun
  obtain ⟨hnamed, hspelled, hkey, hlax⟩ := hstanza
  have hdies : n.RelayDies ⟨"b.example", "a.example"⟩ := ⟨hnone, ⟨1000⟩, rfl, rfl⟩
  have hlost := (servedByDeadRelays.presented_key_answered_unless_relay_dies Simulated.withstands
    hconns hfind hopen (Stanza.of?_key _ _ _) (Stanza.type_key _ _ _) hnamed (Or.inr hlax)
    (by rw [hkey]; decide)).2 hdies
  rw [hkey, hstream, hspelled] at hlost
  exact ⟨hdies, hlost⟩

end Setup

end Federation
