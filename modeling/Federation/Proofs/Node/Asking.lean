import Federation.Proofs.Node.Receipt

/-!
What it takes to ask whether a key is right: a connection that carries the question, which is an
open link of the pair or a relay that is opened for it. The question goes to the end of the queue
there, and the queue is written at once if the peer has announced its stream.
-/

namespace Federation.Node

variable {τ : Type}

theorem withEntry_withEntry (n : Node τ) (p : DomainPair) :
    (n.withEntry p).withEntry p = n.withEntry p := by
  have hentry := (Registry.isSome_get?_ensure n.registry p p).mpr (Or.inl rfl)
  have hregistry : (n.registry.ensure p).ensure p = n.registry.ensure p := if_pos hentry
  rw [withEntry, withEntry, hregistry]

variable [Transport τ]

theorem usableOutgoing?_withEntry (n : Node τ) (p q : DomainPair) :
    (n.withEntry p).usableOutgoing? q = n.usableOutgoing? q := by
  rw [usableOutgoing?, usableOutgoing?, carriers, carriers, outgoingKeys_withEntry]
  rfl

def noteQuestion (n : Node τ) (r : SessionKey) (p : DomainPair) (id key : String) : Node τ :=
  (n.alter r (·.addVerifyRequest p.peer id)).alter r
    (·.enqueue (Stanza.verifyRequest p.own p.peer id key))

def ask (n : Node τ) (r : SessionKey) (p : DomainPair) (id key : String) : Node τ :=
  if (n.session r).peerStreamId.isSome then ((n.noteQuestion r p id key).flush r).2
  else n.noteQuestion r p id key

section Ask

variable (n : Node τ) (r : SessionKey) (p : DomainPair) (id key : String)

omit [Transport τ] in
theorem session_noteQuestion (k : SessionKey) :
    (n.noteQuestion r p id key).session k =
      if k = r ∧ r < n.sessions.length then
        ((n.session k).addVerifyRequest p.peer id).enqueue
          (Stanza.verifyRequest p.own p.peer id key)
      else n.session k := by
  rw [noteQuestion, session_alter, session_alter, length_sessions_alter]
  split <;> rfl

omit [Transport τ] in
theorem session_noteQuestion_self {n : Node τ} {r : SessionKey} (hr : r < n.sessions.length)
    (p : DomainPair) (id key : String) :
    (n.noteQuestion r p id key).session r =
      ((n.session r).addVerifyRequest p.peer id).enqueue
        (Stanza.verifyRequest p.own p.peer id key) := by
  rw [session_noteQuestion, if_pos ⟨rfl, hr⟩]

omit [Transport τ] in
theorem session_noteQuestion_of_ne {n : Node τ} {r k : SessionKey} (hne : k ≠ r) (p : DomainPair)
    (id key : String) : (n.noteQuestion r p id key).session k = n.session k := by
  rw [session_noteQuestion, if_neg fun h => hne h.1]

omit [Transport τ] in
theorem view_session_noteQuestion {α : Type} (view : Session → α) {n : Node τ} {r : SessionKey}
    {p : DomainPair} {id : String} (hrequest : ∀ s, view (s.addVerifyRequest p.peer id) = view s)
    (hqueue : ∀ (s : Session) (stanza : Element), view (s.enqueue stanza) = view s)
    (key : String) (k : SessionKey) :
    view ((n.noteQuestion r p id key).session k) = view (n.session k) := by
  rw [session_noteQuestion]
  split
  · exact (hqueue _ _).trans (hrequest _)
  · rfl

omit [Transport τ] in
theorem waiting_noteQuestion {n : Node τ} {r : SessionKey} (hr : r < n.sessions.length)
    (p : DomainPair) (id key : String) :
    ((n.noteQuestion r p id key).session r).waiting =
      (n.session r).waiting ++ [Stanza.verifyRequest p.own p.peer id key] :=
  congrArg Session.waiting (session_noteQuestion_self hr p id key)

omit [Transport τ] in
@[simp] theorem length_sessions_noteQuestion :
    (n.noteQuestion r p id key).sessions.length = n.sessions.length := by
  simp [noteQuestion]

omit [Transport τ] in
@[simp] theorem find?_noteQuestion (conn : ConnId) :
    (n.noteQuestion r p id key).find? conn = n.find? conn := rfl

omit [Transport τ] in
@[simp] theorem transport_noteQuestion :
    (n.noteQuestion r p id key).transport = n.transport := rfl

omit [Transport τ] in
@[simp] theorem log_noteQuestion : (n.noteQuestion r p id key).log = n.log := rfl

theorem session_ask_of_ne {k : SessionKey} (hne : k ≠ r) :
    (n.ask r p id key).session k = n.session k := by
  have hnoted : (n.noteQuestion r p id key).session k = n.session k :=
    session_noteQuestion_of_ne hne p id key
  unfold ask
  split
  · rw [session_flush, if_neg fun h => hne h.1, hnoted]
  · exact hnoted

@[simp] theorem registry_ask : (n.ask r p id key).registry = n.registry := by
  unfold ask
  split
  · exact registry_flush _ r
  · rfl

@[simp] theorem length_sessions_ask :
    (n.ask r p id key).sessions.length = n.sessions.length := by
  unfold ask
  split <;> simp

variable {n r}

/-- Until the peer has announced its stream, a question waits behind what waits already. -/
theorem ask_of_unannounced (hid : (n.session r).peerStreamId = none) :
    n.ask r p id key = n.noteQuestion r p id key := by
  simp [ask, hid]

/-- Afterwards it is the last of what is written then. -/
theorem log_ask_of_announced (hr : r < n.sessions.length)
    (hid : (n.session r).peerStreamId.isSome) :
    ∃ accepted, (n.ask r p id key).log = n.log ++ [.write (n.session r).conn
      ((n.session r).waiting ++ [Stanza.verifyRequest p.own p.peer id key]) accepted] := by
  have hwaiting := waiting_noteQuestion hr p id key
  have hconn : ((n.noteQuestion r p id key).session r).conn = (n.session r).conn :=
    view_session_noteQuestion Session.conn (fun _ => rfl) (fun _ _ => rfl) key r
  obtain ⟨accepted, hlog⟩ := log_flush_of_mem (n := n.noteQuestion r p id key) (k := r)
    (e := Stanza.verifyRequest p.own p.peer id key) (by simp [hwaiting])
  rw [hwaiting, hconn] at hlog
  refine ⟨accepted, ?_⟩
  rw [ask, if_pos hid, hlog]
  rfl

end Ask

section Request

variable {n : Node τ} (hn : n.HasCanonicalEntries) {pair p : DomainPair}

theorem verifier_of_usable {r : SessionKey} (husable : n.usableOutgoing? p = some r) :
    (n.withEntry p).verifier p = (.ok r, n.withEntry p) := by
  unfold verifier
  rw [usableOutgoing?_withEntry, husable]

include hn

/-- Without an open link of the pair a relay is opened. -/
theorem verifier_of_none (hp : p.IsCanonical n.directory.isServed)
    (hnone : n.usableOutgoing? p = none) :
    (n.withEntry p).verifier p = n.openConnection p (some p.peer) := by
  have hcheck : DomainPair.checked p.own p.peer n.directory.isServed = .ok p := hp
  have hentry : (n.withEntry p).entry p = n.entry p := by
    rw [entry_eq (hn.withEntry hp), entry_eq hn]
    simp only [show (n.withEntry p).directory = n.directory from rfl, hcheck, withEntry_withEntry]
  unfold verifier openConnection
  rw [usableOutgoing?_withEntry, hnone, hentry]

/-- A question goes over an open link of the pair. Without one a relay is opened for it, which the
transport refuses or which may be dead from the start. -/
theorem verifier_cases (hp : p.IsCanonical n.directory.isServed) :
    (∃ r, n.usableOutgoing? p = some r ∧ (n.withEntry p).verifier p = (.ok r, n.withEntry p)) ∨
    n.usableOutgoing? p = none ∧
      ((∃ e, (n.connect p).1 = .error e ∧ (n.withEntry p).verifier p =
        (.error (.transport e), ((n.withEntry p).connect p).2)) ∨
      ∃ conn, (n.connect p).1 = .ok conn ∧ ((n.withEntry p).verifier p =
          (.ok n.sessions.length, ((n.withEntry p).connect p).2.establish p (some p.peer) conn) ∨
        (n.withEntry p).verifier p = (.ok n.sessions.length,
          (((n.withEntry p).connect p).2.establish p (some p.peer) conn).connectionClosed
            conn))) := by
  cases husable : n.usableOutgoing? p with
  | some r => exact Or.inl ⟨r, rfl, verifier_of_usable husable⟩
  | none =>
    rw [verifier_of_none hn hp husable]
    exact Or.inr ⟨rfl, openConnection_cases hn hp (some p.peer)⟩

theorem requestVerification_eq
    (hcheck : DomainPair.checked pair.own pair.peer n.directory.isServed = .ok p)
    (id key : String) :
    (n.requestVerification pair id key).2 =
      match (n.withEntry p).verifier p with
      | (.error _, m) => m
      | (.ok r, m) => m.ask r p id key := by
  unfold requestVerification
  rw [entry_eq hn, hcheck]
  simp only
  rcases (n.withEntry p).verifier p with ⟨outcome, m⟩
  cases outcome with
  | error e => rfl
  | ok r =>
    have hid : ((m.noteQuestion r p id key).session r).peerStreamId =
        (m.session r).peerStreamId :=
      view_session_noteQuestion Session.peerStreamId (fun _ => rfl) (fun _ _ => rfl) key r
    simp only [ask, ← hid]
    unfold noteQuestion
    split <;> rfl

end Request

/-- A key is refused without TLS if that is demanded, and the stream fails on a blank key. Else the
key is asked about, and refused if that fails. -/
theorem receiveKey_cases (n : Node τ) (k : SessionKey) (pair : DomainPair) (stanza : Element) :
    let key := Text.trim (stanza.cdata.getD "")
    let refused := n.demandsTls ((n.session k).pairOr pair) ∧ (n.session k).tlsActive = false
    let asked :=
      (n.alter k (·.setPhase .awaitingVerify)).requestVerification pair (n.session k).streamId key
    (refused ∧ n.receiveKey k pair stanza = n.refuseKey k pair "policy-violation") ∨
    (¬ refused ∧ key = "" ∧ n.receiveKey k pair stanza = n.failStream k "bad-request" false) ∨
    (¬ refused ∧ key ≠ "" ∧ (n.receiveKey k pair stanza = asked.2 ∨
      n.receiveKey k pair stanza = asked.2.refuseKey k pair "remote-server-not-found")) := by
  intro key refused asked
  unfold receiveKey
  simp only
  split
  · rename_i hrefused
    simp only [Bool.and_eq_true, Bool.not_eq_true'] at hrefused
    refine Or.inl ⟨⟨?_, hrefused.1.2⟩, rfl⟩
    simpa [demandsTls] using ⟨hrefused.1.1, hrefused.2⟩
  · rename_i hallowed
    have hallowed' : ¬ refused := by
      rintro ⟨hdemands, hinactive⟩
      simp only [demandsTls, Bool.and_eq_true] at hdemands
      exact hallowed (by simp [hdemands, hinactive])
    split
    · rename_i hblank
      exact Or.inr (Or.inl ⟨hallowed', hblank, rfl⟩)
    · rename_i hblank
      refine Or.inr (Or.inr ⟨hallowed', hblank, ?_⟩)
      rcases hasked : asked with ⟨outcome, m⟩
      simp only [asked, key] at hasked
      simp only [hasked]
      cases outcome with
      | ok => exact Or.inl rfl
      | error e => exact Or.inr rfl

end Federation.Node
