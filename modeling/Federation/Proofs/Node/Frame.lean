import Federation.Node.Connection
import Federation.Node.Lemmas
import Federation.Registry.Lemmas
import Federation.Session.Lemmas

/-!
What the small steps on a node leave alone. A step on one session leaves every other session, and a
step on the surroundings leaves all sessions and the registry.
-/

namespace Federation

namespace Session

/-- What never changes about a session. -/
def identity (s : Session) : ConnId × Role × String × Option String × String :=
  (s.conn, s.role, s.streamId, s.relayFor, s.address)

theorem conn_eq {s t : Session} (h : s.identity = t.identity) : s.conn = t.conn :=
  congrArg (·.1) h

theorem role_eq {s t : Session} (h : s.identity = t.identity) : s.role = t.role :=
  congrArg (·.2.1) h

theorem streamId_eq {s t : Session} (h : s.identity = t.identity) : s.streamId = t.streamId :=
  congrArg (·.2.2.1) h

theorem isRelay_eq {s t : Session} (h : s.identity = t.identity) : s.isRelay = t.isRelay :=
  congrArg (·.2.2.2.1.isSome) h

/-- A change of phase changes nothing else. -/
theorem view_setPhase {α : Type} (view : Session → α)
    (hview : ∀ (s : Session) (phase : Phase), view { s with phase := phase } = view s)
    (phase : Phase) (s : Session) : view (s.setPhase phase) = view s := by
  unfold setPhase
  split
  · rfl
  · exact hview s phase

theorem setPhase_eq (phase : Phase) (s : Session) :
    s.setPhase phase = { s with phase := (s.setPhase phase).phase } := by
  unfold setPhase
  split <;> rfl

/-- A session that has a pair keeps it when it is offered another one. -/
theorem adoptPair_of_pair {s : Session} {pair : DomainPair} (h : s.pair = some pair)
    (other : DomainPair) : s.adoptPair other = s := by
  obtain ⟨⟩ := s
  simp_all [adoptPair, pairOr]

end Session

namespace Node

variable {τ : Type}

theorem session_alter (n : Node τ) (k j : SessionKey) (f : Session → Session) :
    (n.alter k f).session j =
      if j = k ∧ k < n.sessions.length then f (n.session j) else n.session j := by
  by_cases hj : j = k
  · subst hj
    by_cases hk : j < n.sessions.length
    · rw [if_pos ⟨rfl, hk⟩, session_alter_self hk]
    · rw [if_neg (fun h => hk h.2)]
      simp [session, alter, hk]
  · rw [if_neg (fun h => hj h.1), session_alter_of_ne n hj]

/-- What a change of a session does not touch is the same for all sessions afterwards. -/
theorem view_session_alter {α : Type} (view : Session → α) {f : Session → Session}
    (hf : ∀ s, view (f s) = view s) (n : Node τ) (k j : SessionKey) :
    view ((n.alter k f).session j) = view (n.session j) := by
  rw [session_alter]
  split
  · exact hf _
  · rfl

theorem session_of_length_le {n : Node τ} {k : SessionKey} (h : n.sessions.length ≤ k) :
    n.session k = default := by
  simp [session, h]

@[simp] theorem session_create (settings : Settings) (directory : Directory) (transport : τ)
    (issued : Nat) (identify : Nat → String) (k : SessionKey) :
    (create settings directory transport issued identify).session k = default := by
  simp [session, create]

theorem session_addSession (n : Node τ) (s : Session) (j : SessionKey) :
    (n.addSession s).session j = if j = n.sessions.length then s else n.session j := by
  rcases Nat.lt_trichotomy j n.sessions.length with hlt | rfl | hgt
  · rw [if_neg (Nat.ne_of_lt hlt), session_addSession_of_lt hlt]
  · rw [if_pos rfl, session_addSession_self]
  · rw [if_neg (Nat.ne_of_gt hgt), session_of_length_le (Nat.le_of_lt hgt)]
    apply session_of_length_le
    simp only [addSession, List.length_append, List.length_singleton]
    omega

/-- A session of which something holds that does not hold of a new one is there. -/
theorem lt_length_of_session {P : Session → Prop} (hdefault : ¬ P default) {n : Node τ}
    {k : SessionKey} (h : P (n.session k)) : k < n.sessions.length := by
  rcases Nat.lt_or_ge k n.sessions.length with hk | hk
  · exact hk
  · rw [session_of_length_le hk] at h
    exact absurd h hdefault

theorem lt_length_of_inbound {n : Node τ} {k : SessionKey} (h : (n.session k).role = .inbound) :
    k < n.sessions.length :=
  lt_length_of_session (P := fun s => s.role = .inbound) nofun h

theorem lt_length_of_pair {n : Node τ} {k : SessionKey} {pair : DomainPair}
    (h : (n.session k).pair = some pair) : k < n.sessions.length :=
  lt_length_of_session (P := fun s => s.pair = some pair) nofun h

/-- Sessions of different numbers are told apart by what no two of them share. -/
theorem eq_of_nodup {α : Type} {view : Session → α} {n : Node τ} (h : (n.sessions.map view).Nodup)
    {j k : SessionKey} (hj : j < n.sessions.length) (hk : k < n.sessions.length)
    (heq : view (n.session j) = view (n.session k)) : j = k := by
  have hget : ∀ i (hi : i < n.sessions.length), n.session i = n.sessions[i] := by
    intro i hi
    simp [session, hi]
  rw [hget j hj, hget k hk] at heq
  have hj' : j < (n.sessions.map view).length := by simpa using hj
  have hk' : k < (n.sessions.map view).length := by simpa using hk
  have hview : (n.sessions.map view)[j] = (n.sessions.map view)[k] := by simpa using heq
  exact (List.getElem_inj h).mp hview

section Alter

variable (n : Node τ) (k : SessionKey) (f : Session → Session)

@[simp] theorem registry_alter : (n.alter k f).registry = n.registry := rfl

@[simp] theorem directory_alter : (n.alter k f).directory = n.directory := rfl

end Alter

theorem find?_register_of_ne (n : Node τ) {conn other : ConnId} (hne : other ≠ conn)
    (k : SessionKey) : (n.register conn k).find? other = n.find? other := by
  have hunregister := find?_unregister_of_ne n hne
  simp only [find?, unregister] at hunregister
  have hlast : (other == conn) = false := by simpa using hne
  rw [find?, register, List.lookup_append, hunregister]
  simp [find?, List.lookup_cons, hlast]

section Links

variable (n : Node τ) (pair : DomainPair) (k : SessionKey)

theorem session_addIncoming (j : SessionKey) :
    (n.addIncoming pair k).session j =
      if j = k ∧ k < n.sessions.length then (n.session j).join pair else n.session j :=
  session_alter _ k j _

theorem session_addOutgoing (j : SessionKey) :
    (n.addOutgoing pair k).session j =
      if j = k ∧ k < n.sessions.length then (n.session j).join pair else n.session j :=
  session_alter _ k j _

@[simp] theorem length_sessions_addIncoming :
    (n.addIncoming pair k).sessions.length = n.sessions.length := by
  simp [addIncoming]

@[simp] theorem length_sessions_addOutgoing :
    (n.addOutgoing pair k).sessions.length = n.sessions.length := by
  simp [addOutgoing]

@[simp] theorem registry_addIncoming : (n.addIncoming pair k).registry =
    n.registry.alter pair (·.addIncoming (n.link k)) := rfl

@[simp] theorem registry_addOutgoing : (n.addOutgoing pair k).registry =
    n.registry.alter pair (·.addOutgoing (n.link k)) := rfl

theorem session_addLink (j : SessionKey) :
    (n.addLink pair k).session j =
      if j = k ∧ k < n.sessions.length then (n.session j).join pair else n.session j := by
  unfold addLink
  split
  · exact session_addIncoming n pair k j
  · exact session_addOutgoing n pair k j

@[simp] theorem length_sessions_addLink :
    (n.addLink pair k).sessions.length = n.sessions.length := by
  unfold addLink
  split <;> simp

theorem session_trust (j : SessionKey) :
    (n.trust pair k).session j =
      if j = k ∧ k < n.sessions.length then ((n.session j).join pair).markTrusted pair
      else n.session j := by
  have hsame : (n.trust pair k).session j =
      ((n.addLink pair k).alter k (·.markTrusted pair)).session j := rfl
  rw [hsame, session_alter, session_addLink, length_sessions_addLink]
  split <;> rfl

theorem view_session_trust {α : Type} (view : Session → α)
    (hjoin : ∀ s, view (s.join pair) = view s) (hmark : ∀ s, view (s.markTrusted pair) = view s)
    (j : SessionKey) : view ((n.trust pair k).session j) = view (n.session j) := by
  rw [session_trust]
  split
  · exact (hmark _).trans (hjoin _)
  · rfl

theorem isTrustedFor_trust_iff {n : Node τ} {p : DomainPair} {k : SessionKey}
    (hk : k < n.sessions.length) (j : SessionKey) (q : DomainPair) :
    ((n.trust p k).session j).isTrustedFor q ↔
      (n.session j).isTrustedFor q ∨ j = k ∧ q = p := by
  rw [session_trust]
  by_cases hj : j = k
  · have hjoin : ((n.session j).join p).isTrustedFor q = (n.session j).isTrustedFor q := rfl
    rw [if_pos ⟨hj, hk⟩, Session.isTrustedFor_markTrusted, hjoin]
    simp [hj, or_comm]
  · rw [if_neg fun h => hj h.1]
    simp [hj]

@[simp] theorem length_sessions_trust :
    (n.trust pair k).sessions.length = n.sessions.length := by
  simp [trust]

/-- Trusting a session joins it to the pair and marks the pair. -/
theorem registry_trust : (n.trust pair k).registry =
    (n.addLink pair k).registry.alter pair TrustEntry.authenticate := rfl

theorem live_addLink : (n.addLink pair k).live = n.live := by
  unfold addLink
  split <;> rfl

theorem directory_addLink : (n.addLink pair k).directory = n.directory := by
  unfold addLink
  split <;> rfl

theorem log_addLink : (n.addLink pair k).log = n.log := by
  unfold addLink
  split <;> rfl

theorem transport_addLink : (n.addLink pair k).transport = n.transport := by
  unfold addLink
  split <;> rfl

@[simp] theorem live_trust : (n.trust pair k).live = n.live :=
  live_addLink n pair k

@[simp] theorem directory_trust : (n.trust pair k).directory = n.directory :=
  directory_addLink n pair k

@[simp] theorem log_trust : (n.trust pair k).log = n.log :=
  log_addLink n pair k

@[simp] theorem transport_trust : (n.trust pair k).transport = n.transport :=
  transport_addLink n pair k

end Links

section Closing

variable {n : Node τ} {conn : ConnId} {k : SessionKey} (h : n.find? conn = some k)

include h

theorem session_connectionClosed (j : SessionKey) :
    (n.connectionClosed conn).session j =
      if j = k ∧ k < n.sessions.length then (n.session j).beginClose.clearQueue
      else n.session j := by
  have hsame : (n.connectionClosed conn).session j =
      ((n.alter k Session.beginClose).alter k Session.clearQueue).session j := by
    simp only [connectionClosed, h]
    rfl
  rw [hsame, session_alter, session_alter, length_sessions_alter]
  split <;> rfl

theorem length_sessions_connectionClosed :
    (n.connectionClosed conn).sessions.length = n.sessions.length := by
  have hsame : (n.connectionClosed conn).sessions =
      ((n.alter k Session.beginClose).alter k Session.clearQueue).sessions := by
    simp only [connectionClosed, h]
    rfl
  rw [hsame, length_sessions_alter, length_sessions_alter]

omit h in
theorem log_connectionClosed : (n.connectionClosed conn).log = n.log := by
  unfold connectionClosed
  split <;> rfl

omit h in
theorem transport_connectionClosed : (n.connectionClosed conn).transport = n.transport := by
  unfold connectionClosed
  split <;> rfl

theorem live_connectionClosed :
    (n.connectionClosed conn).live = n.live.filter (·.1 != conn) := by
  simp only [connectionClosed, h]
  rfl

end Closing

section Surroundings

variable [Transport τ] (n : Node τ) (conn : ConnId)

theorem log_write (batch : List Element) :
    ∃ accepted, (n.write conn batch).2.log = n.log ++ [.write conn batch accepted] :=
  ⟨_, rfl⟩

@[simp] theorem session_write (batch : List Element) (k : SessionKey) :
    (n.write conn batch).2.session k = n.session k := rfl

@[simp] theorem sessions_connect (pair : DomainPair) :
    (n.connect pair).2.sessions = n.sessions := rfl

theorem log_connect (pair : DomainPair) :
    (n.connect pair).2.log = n.log ++ [.connect pair (n.connect pair).1.toOption] := rfl

theorem session_stop (k j : SessionKey) (force : Bool) :
    (n.stop k force).session j =
      if j = k ∧ k < n.sessions.length ∧ (n.session k).isClosing = false then
        (n.session j).beginClose
      else n.session j := by
  unfold stop
  split
  · rename_i hclosing
    rw [if_neg (fun h => by simp [hclosing] at h)]
  · rename_i hclosing
    have hhalt : ((n.alter k Session.beginClose).halt (n.session k).conn force).session j =
        (n.alter k Session.beginClose).session j := rfl
    simp only [hhalt, session_alter, hclosing, and_true]

theorem view_session_stop {α : Type} (view : Session → α) (hview : ∀ s, view s.beginClose = view s)
    (k j : SessionKey) (force : Bool) : view ((n.stop k force).session j) = view (n.session j) := by
  rw [session_stop]
  split
  · exact hview _
  · rfl

@[simp] theorem length_sessions_stop (k : SessionKey) (force : Bool) :
    (n.stop k force).sessions.length = n.sessions.length := by
  unfold stop
  split
  · rfl
  · exact length_sessions_alter n k Session.beginClose

@[simp] theorem length_sessions_failStream (k : SessionKey) (condition : String) (force : Bool) :
    (n.failStream k condition force).sessions.length = n.sessions.length :=
  length_sessions_stop _ k force

theorem flush_eq (k : SessionKey) :
    (n.flush k).2 =
      if (n.session k).waiting = [] then n
      else ((n.alter k Session.clearQueue).write (n.session k).conn (n.session k).waiting).2 := by
  simp only [flush, List.isEmpty_iff]
  split <;> rfl

theorem session_flush (k j : SessionKey) :
    (n.flush k).2.session j =
      if j = k ∧ k < n.sessions.length then (n.session j).clearQueue else n.session j := by
  rw [flush_eq]
  split
  · rename_i hempty
    split
    · rename_i hj
      rw [hj.1, Session.clearQueue, ← hempty]
    · rfl
  · rw [session_write, session_alter]

theorem view_session_flush {α : Type} (view : Session → α) (hview : ∀ s, view s.clearQueue = view s)
    (k j : SessionKey) : view ((n.flush k).2.session j) = view (n.session j) := by
  rw [session_flush]
  split
  · exact hview _
  · rfl

@[simp] theorem length_sessions_flush (k : SessionKey) :
    (n.flush k).2.sessions.length = n.sessions.length := by
  rw [flush_eq]
  split
  · rfl
  · exact length_sessions_alter n k Session.clearQueue

end Surroundings

end Node

end Federation
