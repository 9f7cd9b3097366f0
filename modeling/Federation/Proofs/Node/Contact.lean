import Federation.Proofs.Node.Confinement
import Federation.Proofs.Node.Upkeep
import Federation.Proofs.Trust.Closing

/-!
What the moves of a node mean for its connections. Most moves leave the connections as they are and
at most write on one; one stops a connection, one opens, one accepts and one ends. A session whose
connection is not there any more is being torn down, and a connection that is not open stays so.
-/

namespace Federation

/-- A transport on which a connection that is not open stays so, unless it is started anew. -/
structure Transport.NeverReopens (τ : Type) [Transport τ] : Prop where
  write : ∀ {t : τ} {conn}, Transport.isOpen t conn = false → ∀ other batch,
    Transport.isOpen (Transport.write t other batch).2 conn = false
  connect : ∀ {t : τ} {conn}, Transport.isOpen t conn = false → ∀ {pair},
    (Transport.connect t pair).1 ≠ .ok conn →
    Transport.isOpen (Transport.connect t pair).2 conn = false
  stop : ∀ {t : τ} {conn}, Transport.isOpen t conn = false → ∀ other force,
    Transport.isOpen (Transport.stop t other force) conn = false

namespace Node

variable {τ : Type}

structure SameConnections (n m : Node τ) : Prop where
  live : m.live = n.live
  length : m.sessions.length = n.sessions.length

theorem SameConnections.of_sessions_eq {n m : Node τ} (hlive : m.live = n.live)
    (hsessions : m.sessions = n.sessions) : SameConnections n m :=
  ⟨hlive, congrArg List.length hsessions⟩

theorem sameConnections_alter (n : Node τ) (k : SessionKey) (f : Session → Session) :
    SameConnections n (n.alter k f) :=
  ⟨rfl, length_sessions_alter n k f⟩

variable [Transport τ]

inductive Contact (n m : Node τ) (c : Cause) : Prop
  | quiet (hsame : SameConnections n m) (htransport : m.transport = n.transport)
  | written (conn : ConnId) (batch : List Element) (hsame : SameConnections n m)
      (htransport : m.transport = (Transport.write n.transport conn batch).2)
  | stopped (k : SessionKey) (force : Bool) (hsame : SameConnections n m)
      (htransport : m.transport = Transport.stop n.transport (n.session k).conn force)
  | refused (p : DomainPair) (e : TransportError) (hsame : SameConnections n m)
      (hconn : (Transport.connect n.transport p).1 = .error e)
      (htransport : m.transport = (Transport.connect n.transport p).2)
  | opened (p : DomainPair) (relayFor : Option String) (conn : ConnId)
      (hconn : (Transport.connect n.transport p).1 = .ok conn)
      (hm : m = (n.connect p).2.establish p relayFor conn)
  | accepted (conn : ConnId) (address : String) (hcall : c = .call (.accept conn address))
      (hm : m = (n.accept conn address).2)
  | closed (conn : ConnId) (k : SessionKey) (hfind : n.find? conn = some k)
      (hgone : c = .call (.connectionClosed conn) ∨ Transport.isOpen n.transport conn = false)
      (hm : m = n.connectionClosed conn)

theorem transport_flush (n : Node τ) (k : SessionKey) :
    (n.flush k).2.transport = n.transport ∨ ∃ conn batch,
      (n.flush k).2.transport = (Transport.write n.transport conn batch).2 := by
  rw [flush_eq]
  split
  · exact Or.inl rfl
  · exact Or.inr ⟨_, _, rfl⟩

/-- A move that at most writes on a connection. -/
theorem contact_of_transport {n m : Node τ} {c : Cause} (hsame : SameConnections n m)
    (htransport : m.transport = n.transport ∨ ∃ conn batch,
      m.transport = (Transport.write n.transport conn batch).2) : Contact n m c := by
  rcases htransport with hquiet | ⟨conn, batch, hwritten⟩
  · exact .quiet hsame hquiet
  · exact .written conn batch hsame hwritten

theorem Move.contact {n m : Node τ} {c : Cause} (h : Move c n m) : Contact n m c := by
  cases h with
  | remark k f => exact .quiet (sameConnections_alter n k f) rfl
  | ensure | arm | tick => exact .quiet (.of_sessions_eq rfl rfl) rfl
  | join k stanza p => exact .quiet ⟨rfl, length_sessions_addIncoming n p k⟩ rfl
  | offerKey k p id secret =>
    let queued := ((n.alter k (·.addKeyRequest p.peer)).alter k (·.enqueue (Stanza.key p.own p.peer
      (Key.derive p.own p.peer secret id)))).alter k (·.setPhase .keySent)
    have hqueued : SameConnections n queued := ⟨rfl, by simp [queued]⟩
    exact contact_of_transport ⟨live_flush queued k,
      (length_sessions_flush queued k).trans hqueued.length⟩ (transport_flush queued k)
  | queueRequest k p id key => exact .quiet ⟨rfl, by simp⟩ rfl
  | flush k =>
    exact contact_of_transport ⟨live_flush n k, length_sessions_flush n k⟩ (transport_flush n k)
  | say k stanza => exact .written (n.session k).conn [stanza] (.of_sessions_eq rfl rfl) rfl
  | stop k force =>
    have hsame : SameConnections n (n.stop k force) :=
      ⟨live_stop n k force, length_sessions_stop n k force⟩
    by_cases hclosing : (n.session k).isClosing
    · exact .quiet hsame (by simp only [Node.stop, hclosing, if_true])
    · exact .stopped k force hsame (by simp only [Node.stop, hclosing]; rfl)
  | grantVerdict k stanza p =>
    exact .quiet ⟨live_trust _ p k, by simp⟩ (transport_trust _ p k)
  | grantCertificate k stanza pair p =>
    exact .quiet ⟨live_trust n p k, by simp⟩ (transport_trust n p k)
  | grantRelayed r t stanza p id =>
    exact .quiet ⟨live_trust _ p t, by simp⟩ (transport_trust _ p t)
  | settle r stanza p id => exact .quiet (sameConnections_alter n r _) rfl
  | accept conn address => exact .accepted conn address rfl rfl
  | refuse p relayFor e hopens hconn => exact .refused p e (.of_sessions_eq rfl rfl) hconn rfl
  | establish p relayFor conn hopens hentry hconn => exact .opened p relayFor conn hconn rfl
  | close conn k hfind hgone => exact .closed conn k hfind hgone rfl

def EndsClosing (n : Node τ) : Prop :=
  ∀ k < n.sessions.length, ¬ n.IsLive k → (n.session k).isClosing

omit [Transport τ] in
/-- A new connection takes no other away, if no two sessions share one. -/
theorem endsClosing_of_opening {n m : Node τ} {conn : ConnId}
    (hold : n.EndsClosing) (hconns : (m.sessions.map (·.conn)).Nodup)
    (hlength : m.sessions.length = n.sessions.length + 1)
    (hsession : ∀ k < n.sessions.length, m.session k = n.session k)
    (hconn : (m.session n.sessions.length).conn = conn)
    (hself : m.find? conn = some n.sessions.length)
    (hfind : ∀ other ≠ conn, m.find? other = n.find? other) : m.EndsClosing := by
  intro k hk hdead
  have hlast : n.sessions.length < m.sessions.length := by omega
  rcases Nat.lt_or_ge k n.sessions.length with hlt | hge
  · have hother : (m.session k).conn ≠ conn := by
      intro heq
      exact Nat.ne_of_lt hlt (eq_of_nodup hconns hk hlast (heq.trans hconn.symm))
    rw [IsLive, hfind _ hother, hsession k hlt] at hdead
    rw [hsession k hlt]
    exact hold k hlt hdead
  · have hk' : k = n.sessions.length := by omega
    subst hk'
    exact absurd ((congrArg m.find? hconn).trans hself) hdead

theorem Move.endsClosing {n m : Node τ} {c : Cause} (h : Move c n m) (hn : n.WellFormed)
    (hconns : (m.sessions.map (·.conn)).Nodup) (hold : n.EndsClosing) : m.EndsClosing := by
  have hquiet : SameConnections n m → m.EndsClosing := by
    intro hsame k hk hdead
    have hlt : k < n.sessions.length := Nat.lt_of_lt_of_eq hk hsame.length
    have hconn := Session.conn_eq (h.identity_eq hlt)
    rw [IsLive, find?, hsame.live, hconn] at hdead
    exact (h.change k).isClosing (hold k hlt hdead)
  cases h.contact with
  | quiet hsame | written conn batch hsame | stopped k force hsame | refused p e hsame =>
    exact hquiet hsame
  | opened p relayFor conn hconn hm =>
    subst hm
    have hsession := session_establish (n.connect p).2 p relayFor conn
    refine endsClosing_of_opening hold hconns (length_sessions_establish _ p relayFor conn)
      (fun k hk => ?_) ?_ (find?_register_self _ conn _)
      fun other hother => find?_register_of_ne _ hother _
    · rw [hsession, sessions_connect, if_neg (Nat.ne_of_lt hk)]
      rfl
    · rw [hsession, sessions_connect, if_pos rfl]
      rfl
  | accepted conn address hcall hm =>
    subst hm
    refine endsClosing_of_opening hold hconns ?_ (fun k hk => session_addSession_of_lt hk _)
      (congrArg Session.conn (session_addSession_self n _)) (find?_register_self _ conn _)
      fun other hother => find?_register_of_ne _ hother _
    simp [Node.accept, addSession, register]
  | closed conn k hfind hgone hm =>
    subst hm
    intro j hj hdead
    rw [length_sessions_connectionClosed hfind] at hj
    obtain ⟨hk, hown⟩ := hn.live conn k hfind
    rw [session_connectionClosed hfind]
    by_cases hjk : j = k
    · rw [if_pos ⟨hjk, hk⟩]
      rfl
    · rw [if_neg fun hsame => hjk hsame.1]
      have hconns' := h.conns_prefix.sublist.nodup hconns
      have hother : (n.session j).conn ≠ conn := fun heq =>
        hjk (eq_of_nodup hconns' hj hk (heq.trans hown.symm))
      rw [IsLive, view_session_connectionClosed hfind Session.conn (fun _ => rfl),
        find?_connectionClosed_of_ne hfind hother] at hdead
      exact hold j hj hdead

theorem Move.isOpen_eq_false {n m : Node τ} {c : Cause} (h : Move c n m)
    (hstays : Transport.NeverReopens τ) (hconns : (m.sessions.map (·.conn)).Nodup)
    {k : SessionKey} (hk : k < n.sessions.length) (hopen : n.isOpen k = false) :
    m.isOpen k = false := by
  have hconn := Session.conn_eq (h.identity_eq hk)
  by_cases hclosing : (n.session k).isClosing
  · simp [isOpen, (h.change k).isClosing hclosing]
  have hdown : Transport.isOpen n.transport (n.session k).conn = false := by
    simpa [isOpen, hclosing] using hopen
  suffices Transport.isOpen m.transport (n.session k).conn = false by
    simp [isOpen, hconn, this]
  cases h.contact with
  | quiet hsame htransport => rwa [htransport]
  | written conn batch hsame htransport =>
    rw [htransport]
    exact hstays.write hdown conn batch
  | stopped j force hsame htransport =>
    rw [htransport]
    exact hstays.stop hdown _ force
  | refused p e hsame hrefused htransport =>
    rw [htransport]
    exact hstays.connect hdown (by rw [hrefused]; exact fun h => by cases h)
  | opened p relayFor conn hconnected hm =>
    -- The connection of a session is not the one that is started, as no two sessions share one.
    refine hm ▸ hstays.connect hdown fun hsame => ?_
    have heq : conn = (n.session k).conn := Except.ok.inj (hconnected.symm.trans hsame)
    have hlength : m.sessions.length = n.sessions.length + 1 := by
      rw [hm]
      exact length_sessions_establish _ p relayFor conn
    have hlast : (m.session n.sessions.length).conn = conn := by
      rw [hm, session_establish, sessions_connect, if_pos rfl]
      rfl
    have hlt : n.sessions.length < m.sessions.length := by omega
    exact Nat.ne_of_lt hk (eq_of_nodup hconns (Nat.lt_trans hk hlt) hlt
      (hconn.trans (heq.symm.trans hlast.symm)))
  | accepted conn address hcall hm => exact hm ▸ hdown
  | closed conn j hfind hgone hm =>
    have htransport : (n.connectionClosed conn).transport = n.transport := by
      simp only [connectionClosed, hfind]
      rfl
    rwa [hm, htransport]

end Node

end Federation
