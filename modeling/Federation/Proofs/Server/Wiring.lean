import Federation.Proofs.Node.Contact
import Federation.Proofs.Server.Task

/-!
How a server keeps its two views of connections together. The node knows the connections that are
there, the channel those that are open, and only commands pass between them. Whatever is called at
the server, a connection that is there and not open waits to be closed, and one of ours that is open
waits to be failed. So once the task is idle, the connections that are there are the open ones, and
peers opened all of them.
-/

namespace Federation

/-- The events that are calls at a server. It takes connections in with numbers of its own, and that
one is gone is reported by its task only. -/
def Event.isCall : Event → Bool
  | .accept _ _ => false
  | .connectionClosed _ => false
  | _ => true

inductive ServerStep where
  | accept (address : String)
  | call (event : Event) (hcall : event.isCall)
  | expire (k : SessionKey)
  /-- Others keep or drop sessions. -/
  | hold (pinned : List SessionKey)

namespace Channel

/-- What operations of a node make of a channel: they take no command, open no connection, and
hand over that one is to be closed just when they close it. -/
structure Extends (t t' : Channel) : Prop where
  allocated : t'.allocated = t.allocated
  receiving : t'.isReceiving = t.isReceiving
  taken : t'.taken ≤ t'.commands.length
  pending : t.pending <+: t'.pending
  opened : ∀ conn, t'.isOpen conn → t.isOpen conn
  closed : ∀ conn, t.isOpen conn → t'.isOpen conn = false → ∃ force, .close conn force ∈ t'.pending
  closes : ∀ conn force, .close conn force ∈ t'.pending → .close conn force ∈ t.pending ∨
    t.isOpen conn ∧ t'.isOpen conn = false

variable {t : Channel}

theorem Extends.refl (htaken : t.taken ≤ t.commands.length) : t.Extends t where
  allocated := rfl
  receiving := rfl
  taken := htaken
  pending := List.prefix_refl _
  opened := fun _ h => h
  closed := fun _ hopen hclosed => absurd (hopen.symm.trans hclosed) Bool.noConfusion
  closes := fun _ _ h => Or.inl h

structure Starts (t t' : Channel) : Prop where
  allocated : t'.allocated = t.allocated + 1
  receiving : t'.isReceiving
  taken : t'.taken ≤ t'.commands.length
  opened : ∀ conn, t'.isOpen conn = (t.isOpen conn || conn == t.nextConn)
  pending : t.pending <+: t'.pending
  closes : ∀ conn force, .close conn force ∈ t'.pending → .close conn force ∈ t.pending

variable (hreceiving : t.isReceiving) (htaken : t.taken ≤ t.commands.length)

include hreceiving htaken

theorem starts_allocate : t.Starts t.allocate where
  allocated := rfl
  receiving := hreceiving
  taken := htaken
  opened := isOpen_allocate t
  pending := List.prefix_refl _
  closes := fun _ _ h => h

theorem connect_eq (p : DomainPair) :
    t.connect p = (.ok t.nextConn, t.allocate.emit (.connect t.nextConn p)) ∧
      (t.connect p).2.pending = t.pending ++ [.connect t.nextConn p] := by
  rw [connect, if_pos hreceiving]
  exact ⟨rfl, pending_emit (t := t.allocate) hreceiving htaken _⟩

theorem starts_connect (p : DomainPair) : t.Starts (t.connect p).2 := by
  obtain ⟨hconnect, hpending⟩ := connect_eq hreceiving htaken p
  refine ⟨?_, ?_, ?_, fun conn => ?_, ?_, fun conn force hmem => ?_⟩
  · simp [hconnect, emit, allocate, hreceiving]
  · simp [hconnect, emit, allocate, hreceiving]
  · simp only [hconnect, emit, allocate, hreceiving, if_true, List.length_append]
    omega
  · rw [hconnect, isOpen_emit, isOpen_allocate]
  · rw [hpending]
    exact List.prefix_append _ _
  · rw [hpending] at hmem
    simpa using hmem

theorem extends_write (conn : ConnId) (batch : List Element) :
    t.Extends (t.write conn batch).2 := by
  unfold write
  split
  · have hpending := pending_emit hreceiving htaken (.write conn batch)
    refine ⟨by simp [emit, hreceiving], by simp [emit, hreceiving], ?_, ?_, fun other h => ?_,
      fun other hopen hclosed => ?_, fun other force hmem => ?_⟩
    · simp only [emit, hreceiving, if_true, List.length_append]
      omega
    · rw [hpending]
      exact List.prefix_append _ _
    · rwa [isOpen_emit] at h
    · rw [isOpen_emit, hopen] at hclosed
      cases hclosed
    · rw [hpending] at hmem
      rcases List.mem_append.mp hmem with hold | hnew
      · exact Or.inl hold
      · cases List.mem_singleton.mp hnew
  · exact .refl htaken

theorem extends_close (conn : ConnId) (force : Bool) : t.Extends (t.close conn force) := by
  have hpending := pending_close hreceiving htaken conn force
  have hrest : (t.close conn force).allocated = t.allocated ∧
      (t.close conn force).isReceiving = t.isReceiving ∧
      (t.close conn force).taken ≤ (t.close conn force).commands.length := by
    unfold close
    split
    · refine ⟨by simp [emit, hreceiving], by simp [emit, hreceiving], ?_⟩
      simp only [emit, hreceiving, if_true, List.length_append]
      omega
    · exact ⟨rfl, rfl, htaken⟩
  refine ⟨hrest.1, hrest.2.1, hrest.2.2, ?_, fun other h => ?_, fun other hopen hclosed => ?_,
    fun other again hmem => ?_⟩
  · rw [hpending]
    exact List.prefix_append _ _
  · rw [isOpen_close, Bool.and_eq_true] at h
    exact h.1
  · have hsame : other = conn := by simpa [isOpen_close, hopen] using hclosed
    subst hsame
    exact ⟨force, by rw [hpending, if_pos hopen]; simp⟩
  · rw [hpending] at hmem
    rcases List.mem_append.mp hmem with hold | hnew
    · exact Or.inl hold
    · split at hnew
      · rename_i hopen
        obtain ⟨rfl, -⟩ := TransportCommand.close.inj (List.mem_singleton.mp hnew)
        exact Or.inr ⟨hopen, by rw [isOpen_close, bne_self_eq_false, Bool.and_false]⟩
      · cases hnew

end Channel

namespace Node

structure Consistent {τ : Type} (n : Node τ) : Prop where
  wellFormed : n.WellFormed
  bound : n.Bound
  coherent : n.Coherent
  conns : (n.sessions.map (·.conn)).Nodup

theorem Consistent.withSurroundings {τ : Type} {n : Node τ} (hn : n.Consistent) (transport : τ)
    (pinned : List SessionKey) : { n with transport := transport, pinned := pinned }.Consistent :=
  ⟨⟨hn.wellFormed.entries, hn.wellFormed.live⟩,
    ⟨hn.bound.opened, hn.bound.keys, hn.bound.verifies, hn.bound.incoming, hn.bound.outgoing⟩,
    hn.coherent.of_eq rfl rfl fun _ => rfl, hn.conns⟩

theorem Move.consistent {τ : Type} [Transport τ] {n m : Node τ} {c : Cause} (h : Move c n m)
    (hn : n.Consistent) (hconns : (m.sessions.map (·.conn)).Nodup) : m.Consistent :=
  ⟨h.wellFormed hn.wellFormed, h.bound hn.bound,
    h.coherent hn.wellFormed hn.bound hconns hn.coherent, hconns⟩

def ClosesQueued (n : Node Channel) : Prop :=
  ∀ conn k, n.find? conn = some k → n.transport.isOpen conn = false →
    ∃ force, .close conn force ∈ n.transport.pending

/-- The two views of connections agree but for what the commands tell that wait. -/
structure Wired (n : Node Channel) : Prop where
  consistent : n.Consistent
  receiving : n.transport.isReceiving
  taken : n.transport.taken ≤ n.transport.commands.length
  numbers : ∀ k < n.sessions.length, (n.session k).conn.number ≤ n.transport.allocated
  opened : ∀ conn, n.transport.isOpen conn → ∃ k, n.find? conn = some k
  queued : n.ClosesQueued
  closes : ∀ conn force, .close conn force ∈ n.transport.pending →
    n.transport.isOpen conn = false ∧ conn.number ≤ n.transport.allocated
  outbound : ∀ conn k, n.find? conn = some k → (n.session k).role = .outbound →
    n.transport.isOpen conn → ∃ pair, .connect conn pair ∈ n.transport.pending

def perform (settings : Settings) (n : Node Channel) : ServerStep → Node Channel
  | .accept address => (n.acceptNew address).2
  | .call event _ => n.step (Chain.standard settings) event
  | .expire k => n.expire k
  | .hold pinned => { n with pinned := pinned }

/-- The server after some steps, after each of which its task has run until it was idle. -/
def serve (settings : Settings) (n : Node Channel) (steps : List ServerStep) : Node Channel :=
  steps.foldl (fun n s => (n.perform settings s).settle) n

/-- The nodes that a step of a server passes through: those of the moves of a call, and those
between the commands that its task does then. -/
inductive Passes (settings : Settings) (n : Node Channel) : ServerStep → Node Channel → Prop
  | during (event : Event) (hcall : event.isCall) (m : Node Channel)
      (h : Moves (n.cause event) n m) : Passes settings n (.call event hcall) m
  | after (s : ServerStep) (count : Nat) :
      Passes settings n s (serveNext^[count] (n.perform settings s))

namespace Wired

variable {n m : Node Channel}

theorem number_le (hn : n.Wired) {conn : ConnId} {k : SessionKey} (hfind : n.find? conn = some k) :
    conn.number ≤ n.transport.allocated := by
  obtain ⟨hk, hconn⟩ := hn.consistent.wellFormed.live conn k hfind
  rw [← hconn]
  exact hn.numbers k hk

/-- A step that opens and ends no session, and at most closes connections. -/
theorem of_extends (hn : n.Wired) (hconsistent : m.Consistent) (hsame : SameConnections n m)
    (hidentity : ∀ k < n.sessions.length, (m.session k).identity = (n.session k).identity)
    (htransport : n.transport.Extends m.transport) : m.Wired := by
  have hfind : ∀ conn, m.find? conn = n.find? conn := fun conn => by rw [find?, hsame.live, find?]
  refine ⟨hconsistent, htransport.receiving.trans hn.receiving, htransport.taken,
    ?_, ?_, ?_, ?_, ?_⟩
  · intro k hk
    rw [hsame.length] at hk
    rw [Session.conn_eq (hidentity k hk), htransport.allocated]
    exact hn.numbers k hk
  · intro conn hopen
    rw [hfind]
    exact hn.opened conn (htransport.opened conn hopen)
  · intro conn k hk hclosed
    rw [hfind] at hk
    cases hopen : n.transport.isOpen conn with
    | true => exact htransport.closed conn hopen hclosed
    | false =>
      obtain ⟨force, hmem⟩ := hn.queued conn k hk hopen
      exact ⟨force, htransport.pending.subset hmem⟩
  · intro conn force hmem
    rw [htransport.allocated]
    rcases htransport.closes conn force hmem with hold | ⟨hopen, hclosed⟩
    · obtain ⟨hclosed, hnumber⟩ := hn.closes conn force hold
      refine ⟨?_, hnumber⟩
      rw [← Bool.not_eq_true]
      exact fun hopen => by rw [htransport.opened conn hopen] at hclosed; cases hclosed
    · obtain ⟨k, hk⟩ := hn.opened conn hopen
      exact ⟨hclosed, hn.number_le hk⟩
  · intro conn k hk hrole hopen
    rw [hfind] at hk
    rw [Session.role_eq (hidentity k (hn.consistent.wellFormed.live conn k hk).1)] at hrole
    obtain ⟨pair, hmem⟩ := hn.outbound conn k hk hrole (htransport.opened conn hopen)
    exact ⟨pair, htransport.pending.subset hmem⟩

/-- The next connection is that of no session. -/
theorem nodup_conns (hn : n.Wired) (hlength : m.sessions.length = n.sessions.length + 1)
    (hidentity : ∀ k < n.sessions.length, (m.session k).identity = (n.session k).identity)
    (hconn : (m.session n.sessions.length).conn = n.transport.nextConn) :
    (m.sessions.map (·.conn)).Nodup := by
  have hconns : m.sessions.map (·.conn) = n.sessions.map (·.conn) ++ [n.transport.nextConn] := by
    refine List.ext_getElem (by simp [hlength]) fun k hk hk' => ?_
    have hlt : k < m.sessions.length := by simpa using hk
    have hview : (m.sessions.map (·.conn))[k] = (m.session k).conn := by simp [session, hlt]
    rw [hview]
    rcases Nat.lt_or_ge k n.sessions.length with hold | hnew
    · rw [Session.conn_eq (hidentity k hold)]
      simp [session, hold]
    · have hlast : k = n.sessions.length := by omega
      simp [hlast, hconn]
  rw [hconns, List.nodup_append]
  refine ⟨hn.consistent.conns, by simp, ?_⟩
  intro conn hmem other hother heq
  obtain ⟨s, hs, rfl⟩ := List.mem_map.mp hmem
  obtain ⟨k, hk, rfl⟩ := List.mem_iff_getElem.mp hs
  have hnumber := hn.numbers k hk
  have hview : n.session k = n.sessions[k] := by simp [session, hk]
  rw [hview, heq, List.mem_singleton.mp hother] at hnumber
  exact Nat.not_succ_le_self _ hnumber

/-- A step that opens a session for the next connection. One that we open is asked for at
the same time. -/
theorem of_opening (hn : n.Wired)
    (hconsistent : (m.sessions.map (·.conn)).Nodup → m.Consistent)
    (hlength : m.sessions.length = n.sessions.length + 1)
    (hidentity : ∀ k < n.sessions.length, (m.session k).identity = (n.session k).identity)
    (hconn : (m.session n.sessions.length).conn = n.transport.nextConn)
    (hself : m.find? n.transport.nextConn = some n.sessions.length)
    (hfind : ∀ other ≠ n.transport.nextConn, m.find? other = n.find? other)
    (hstarts : n.transport.Starts m.transport)
    (hasked : (m.session n.sessions.length).role = .outbound →
      ∃ pair, .connect n.transport.nextConn pair ∈ m.transport.pending) : m.Wired := by
  have hnext : n.transport.nextConn.number = n.transport.allocated + 1 := rfl
  have hallocated := hstarts.allocated
  have hopen := hstarts.opened
  have hother : ∀ conn k, n.find? conn = some k → conn ≠ n.transport.nextConn := by
    rintro _ k hk rfl
    have hle := hn.number_le hk
    omega
  refine ⟨hconsistent (hn.nodup_conns hlength hidentity hconn), hstarts.receiving,
    hstarts.taken, ?_, ?_, ?_, ?_, ?_⟩
  · intro k hk
    rcases Nat.lt_or_ge k n.sessions.length with hlt | hge
    · have hle := hn.numbers k hlt
      rw [Session.conn_eq (hidentity k hlt)]
      omega
    · have hlast : k = n.sessions.length := by omega
      rw [hlast, hconn]
      omega
  · intro conn hconn'
    by_cases hsame : conn = n.transport.nextConn
    · exact ⟨_, hsame ▸ hself⟩
    · rw [hfind conn hsame]
      refine hn.opened conn ?_
      simpa [hopen, hsame] using hconn'
  · intro conn k hk hclosed
    rw [hopen, Bool.or_eq_false_iff, beq_eq_false_iff_ne] at hclosed
    rw [hfind conn hclosed.2] at hk
    obtain ⟨force, hmem⟩ := hn.queued conn k hk hclosed.1
    exact ⟨force, hstarts.pending.subset hmem⟩
  · intro conn force hmem
    obtain ⟨hclosed, hle⟩ := hn.closes conn force (hstarts.closes conn force hmem)
    have hsame : conn ≠ n.transport.nextConn := by
      rintro rfl
      omega
    refine ⟨?_, by omega⟩
    rw [hopen, hclosed, Bool.false_or, beq_eq_false_iff_ne]
    exact hsame
  · intro conn k hk hrole hconn'
    by_cases hsame : conn = n.transport.nextConn
    · rw [hsame, hself] at hk
      rw [← Option.some.inj hk] at hrole
      exact hsame ▸ hasked hrole
    · rw [hfind conn hsame] at hk
      rw [Session.role_eq (hidentity k (hn.consistent.wellFormed.live conn k hk).1)] at hrole
      obtain ⟨pair, hmem⟩ := hn.outbound conn k hk hrole (by simpa [hopen, hsame] using hconn')
      exact ⟨pair, hstarts.pending.subset hmem⟩

/-- The end of a connection that is not open. -/
theorem connectionClosed (hn : n.Wired) {conn : ConnId} (hconn : n.transport.isOpen conn = false) :
    (n.connectionClosed conn).Wired := by
  cases hfind : n.find? conn with
  | none =>
    have hsame : n.connectionClosed conn = n := by simp only [Node.connectionClosed, hfind]
    rwa [hsame]
  | some k =>
    have hmove : Move (.call (.connectionClosed conn)) n (n.connectionClosed conn) :=
      .close conn k hfind (Or.inl rfl)
    have htransport : (n.connectionClosed conn).transport = n.transport :=
      transport_connectionClosed
    have hlength := length_sessions_connectionClosed hfind
    have hidentity := view_session_connectionClosed hfind Session.identity fun _ => rfl
    have hfound : ∀ other j, (n.connectionClosed conn).find? other = some j →
        n.find? other = some j := by
      intro other j hj
      by_cases hother : other = conn
      · rw [hother, find?, live_connectionClosed hfind] at hj
        rw [show (n.live.filter (·.1 != conn)).lookup conn = none from
          find?_unregister_self n conn] at hj
        cases hj
      · rwa [find?_connectionClosed_of_ne hfind hother] at hj
    have hconns : ((n.connectionClosed conn).sessions.map (·.conn)).Nodup := by
      have hprefix := hmove.conns_prefix
      rw [← hprefix.eq_of_length (by simp [hlength])]
      exact hn.consistent.conns
    refine ⟨hmove.consistent hn.consistent hconns, ?_, ?_, ?_, ?_, ?_, ?_, ?_⟩
    · rw [htransport]
      exact hn.receiving
    · rw [htransport]
      exact hn.taken
    · intro j hj
      rw [hlength] at hj
      rw [Session.conn_eq (hidentity j), htransport]
      exact hn.numbers j hj
    · intro other hopen
      rw [htransport] at hopen
      have hother : other ≠ conn := by
        rintro rfl
        rw [hconn] at hopen
        cases hopen
      rw [find?_connectionClosed_of_ne hfind hother]
      exact hn.opened other hopen
    · intro other j hj hclosed
      rw [htransport] at hclosed ⊢
      exact hn.queued other j (hfound other j hj) hclosed
    · rw [htransport]
      exact hn.closes
    · intro other j hj hrole
      rw [Session.role_eq (hidentity j)] at hrole
      rw [htransport]
      exact hn.outbound other j (hfound other j hj) hrole

/-- A command that has nothing left to do is taken. -/
theorem withTaken (hn : n.Wired) {command : TransportCommand} {rest : List TransportCommand}
    (hpending : n.transport.pending = command :: rest)
    (hclose : ∀ conn force, command = .close conn force → n.find? conn = none)
    (hconnect : ∀ conn pair, command = .connect conn pair → n.transport.isOpen conn = false) :
    (n.withTaken (n.transport.taken + 1)).Wired := by
  obtain ⟨htaken, hrest⟩ := Channel.pending_eq_cons hpending
  have hrest' : (n.withTaken (n.transport.taken + 1)).transport.pending = rest := hrest
  refine ⟨hn.consistent.withSurroundings _ n.pinned, hn.receiving, htaken, hn.numbers, hn.opened,
    ?_, ?_, ?_⟩
  · intro conn k hk hclosed
    obtain ⟨force, hmem⟩ := hn.queued conn k hk hclosed
    rw [hpending] at hmem
    rcases List.mem_cons.mp hmem with heq | hmem
    · cases (hclose conn force heq.symm).symm.trans hk
    · exact ⟨force, by rwa [hrest']⟩
  · intro conn force hmem
    rw [hrest'] at hmem
    exact hn.closes conn force (hpending ▸ List.mem_cons_of_mem command hmem)
  · intro conn k hk hrole hopen
    obtain ⟨pair, hmem⟩ := hn.outbound conn k hk hrole hopen
    rw [hpending] at hmem
    rcases List.mem_cons.mp hmem with heq | hmem
    · cases (hconnect conn pair heq.symm).symm.trans hopen
    · exact ⟨pair, by rwa [hrest']⟩

/-- Every command leaves the two views together. -/
theorem serveNext (hn : n.Wired) : n.serveNext.Wired := by
  cases hpending : n.transport.pending with
  | nil =>
    have hsame : n.serveNext = n := by rw [Node.serveNext, hpending]
    rwa [hsame]
  | cons command rest =>
    have hnext : n.serveNext = (n.handle command).withTaken (n.transport.taken + 1) := by
      rw [Node.serveNext, hpending, ← handle_withTaken]
    obtain ⟨htaken, added, hcommands, -⟩ := handle_transport n command
    have hpending' : (n.handle command).transport.pending = command :: (rest ++ added) := by
      rw [Channel.pending, htaken, hcommands, List.drop_append_of_le_length hn.taken,
        show n.transport.commands.drop n.transport.taken = command :: rest from hpending]
      rfl
    rw [hnext, ← htaken]
    cases command with
    | write conn batch =>
      exact withTaken (n := n.handle (.write conn batch)) hn hpending'
        (fun _ _ h => by cases h) fun _ _ h => by cases h
    | connect conn pair =>
      have hextends := Channel.extends_close hn.receiving hn.taken conn true
      have hfailed : (n.handle (.connect conn pair)).Wired :=
        hn.of_extends (hn.consistent.withSurroundings _ n.pinned) ⟨rfl, rfl⟩ (fun _ _ => rfl)
          hextends
      refine hfailed.withTaken hpending' (fun _ _ h => by cases h) fun other pair' h => ?_
      obtain ⟨rfl, -⟩ := TransportCommand.connect.inj h
      exact (Channel.isOpen_close _ _ _ _).trans (by rw [bne_self_eq_false, Bool.and_false])
    | close conn force =>
      have hdown := (hn.closes conn force (by rw [hpending]; exact List.mem_cons_self)).1
      refine (hn.connectionClosed hdown).withTaken hpending' (fun other again h => ?_)
        fun _ _ h => by cases h
      obtain ⟨rfl, -⟩ := TransportCommand.close.inj h
      cases hfind : n.find? conn with
      | none => simp only [Node.connectionClosed, hfind]
      | some k =>
        rw [find?, live_connectionClosed hfind]
        exact find?_unregister_self n conn

/-- Every move of a call leaves the two views together. -/
theorem of_move {c : Cause} (hn : n.Wired) (h : Move c n m)
    (haccept : ∀ conn address, c ≠ .call (.accept conn address))
    (hclosed : ∀ conn, c ≠ .call (.connectionClosed conn)) : m.Wired := by
  have hidentity : ∀ k < n.sessions.length, (m.session k).identity = (n.session k).identity :=
    fun k hk => h.identity_eq hk
  have hsame : SameConnections n m → m.Consistent := by
    intro hsame
    refine h.consistent hn.consistent ?_
    rw [← h.conns_prefix.eq_of_length (by simp [hsame.length])]
    exact hn.consistent.conns
  cases h.contact with
  | quiet hquiet htransport =>
    refine hn.of_extends (hsame hquiet) hquiet hidentity ?_
    rw [htransport]
    exact .refl hn.taken
  | written conn batch hquiet htransport =>
    refine hn.of_extends (hsame hquiet) hquiet hidentity ?_
    rw [htransport]
    exact Channel.extends_write hn.receiving hn.taken conn batch
  | stopped k force hquiet htransport =>
    refine hn.of_extends (hsame hquiet) hquiet hidentity ?_
    rw [htransport]
    exact Channel.extends_close hn.receiving hn.taken _ force
  | refused p e hquiet hrefused htransport =>
    -- A channel that has a receiver refuses no connection.
    have hconnect := (Channel.connect_eq hn.receiving hn.taken p).1
    cases (congrArg Prod.fst hconnect).symm.trans hrefused
  | accepted conn address hcall hm => exact absurd hcall (haccept conn address)
  | closed conn k hfind hgone hm =>
    subst hm
    exact hn.connectionClosed (hgone.resolve_left (hclosed conn))
  | opened p relayFor conn hconnected hm =>
    subst hm
    obtain ⟨hconnect, hpending⟩ := Channel.connect_eq hn.receiving hn.taken p
    obtain rfl : n.transport.nextConn = conn :=
      Except.ok.inj ((congrArg Prod.fst hconnect).symm.trans hconnected)
    have hsession := session_establish (n.connect p).2 p relayFor n.transport.nextConn
      n.sessions.length
    rw [sessions_connect, if_pos rfl] at hsession
    refine hn.of_opening (h.consistent hn.consistent) (length_sessions_establish _ p relayFor _)
      hidentity ?_ (find?_register_self _ _ _) (fun other hother => find?_register_of_ne _ hother _)
      (Channel.starts_connect hn.receiving hn.taken p) fun _ => ⟨p, ?_⟩
    · rw [hsession]
      rfl
    · show _ ∈ (n.transport.connect p).2.pending
      rw [hpending]
      simp

theorem of_moves {c : Cause} (hn : n.Wired) (h : Moves c n m)
    (haccept : ∀ conn address, c ≠ .call (.accept conn address))
    (hclosed : ∀ conn, c ≠ .call (.connectionClosed conn)) : m.Wired := by
  induction h with
  | refl => exact hn
  | tail _ hmove ih => exact ih.of_move hmove haccept hclosed

theorem of_call (hn : n.Wired) {event : Event} (hcall : event.isCall)
    (h : Moves (n.cause event) n m) : m.Wired := by
  refine hn.of_moves h (fun conn address hcause => ?_) fun conn hcause => ?_
  · rw [eq_of_cause_eq_call hcause] at hcall
    cases hcall
  · rw [eq_of_cause_eq_call hcause] at hcall
    cases hcall

theorem acceptNew (hn : n.Wired) (address : String) : (n.acceptNew address).2.Wired := by
  let started := { n with transport := n.transport.allocate }
  have hmove : Move (.call (.accept n.transport.nextConn address)) started
      (n.acceptNew address).2 := .accept _ _
  have hlast : (n.acceptNew address).2.session n.sessions.length =
      .accepted n.transport.nextConn address n.nextIdentifier := session_addSession_self started _
  refine hn.of_opening (hmove.consistent (hn.consistent.withSurroundings _ n.pinned)) ?_
    (fun k hk => hmove.identity_eq hk) ?_ (find?_register_self _ _ _)
    (fun other hother => find?_register_of_ne _ hother _)
    (Channel.starts_allocate hn.receiving hn.taken) fun hrole => ?_
  · simp [Node.acceptNew, Node.accept, addSession, register, Channel.register]
  · rw [hlast]
    rfl
  · rw [hlast] at hrole
    cases hrole

theorem perform (hn : n.Wired) (settings : Settings) (s : ServerStep) :
    (n.perform settings s).Wired := by
  cases s with
  | accept address => exact hn.acceptNew address
  | call event hcall => exact hn.of_call hcall (step_moves hn.consistent.wellFormed settings event)
  | expire k =>
    -- That time goes on is one of the causes for which a check may be made.
    have hcall : (Event.advance 0).isCall := rfl
    exact hn.of_call hcall (moves_expire k)
  | hold pinned =>
    exact hn.of_extends (hn.consistent.withSurroundings n.transport pinned) ⟨rfl, rfl⟩
      (fun _ _ => rfl) (.refl hn.taken)

theorem iterate (hn : n.Wired) (count : Nat) : (Node.serveNext^[count] n).Wired := by
  induction count generalizing n with
  | zero => exact hn
  | succ count ih => exact ih hn.serveNext

/-- The task leaves the two views together, with nothing left to do. -/
theorem settle (hn : n.Wired) : n.settle.Wired ∧ n.settle.transport.pending = [] := by
  obtain ⟨hidle, count, hcount⟩ := settle_idle hn.taken
  exact ⟨hcount ▸ hn.iterate count, hidle⟩

theorem ofConfig {c : Config} {issued : Nat} {identify : Nat → String}
    (h : Node.ofConfig c issued identify = .ok n) :
    n.Wired ∧ n.transport.pending = [] := by
  unfold Node.ofConfig at h
  split at h
  · cases h
  · cases h
    refine ⟨⟨⟨⟨fun q hq => ?_, fun conn k hk => ?_⟩, bound_create _ _ _ _ _,
      coherent_create _ _ _ _ _, List.nodup_nil⟩, rfl, Nat.zero_le _,
      fun k hk => absurd hk (Nat.not_lt_zero k), fun conn h => ?_, fun conn k h => ?_,
      fun conn force h => ?_, fun conn k h => ?_⟩, rfl⟩
    · cases hq
    · cases hk
    · cases h
    · cases h
    · cases h
    · cases h

/-- After every step of a server and the run of its task, the two views are together. -/
theorem serve (hn : n.Wired) (hidle : n.transport.pending = []) (settings : Settings)
    (steps : List ServerStep) :
    (n.serve settings steps).Wired ∧ (n.serve settings steps).transport.pending = [] := by
  induction steps generalizing n with
  | nil => exact ⟨hn, hidle⟩
  | cons s steps ih =>
    obtain ⟨hsettled, hidle'⟩ := (hn.perform settings s).settle
    exact ih hsettled hidle'

/-- With nothing left to do, the connections that are there are those that are open. -/
theorem isOpen_eq (hn : n.Wired) (hidle : n.transport.pending = []) (conn : ConnId) :
    n.transport.isOpen conn = (n.find? conn).isSome := by
  cases hfind : n.find? conn with
  | none =>
    rw [Option.isSome_none, ← Bool.not_eq_true]
    intro hopen
    obtain ⟨k, hk⟩ := hn.opened conn hopen
    rw [hfind] at hk
    cases hk
  | some k =>
    rw [Option.isSome_some]
    by_contra hclosed
    obtain ⟨force, hmem⟩ := hn.queued conn k hfind (by simpa using hclosed)
    rw [hidle] at hmem
    cases hmem

/-- With nothing left to do, no connection of ours is there. -/
theorem role_eq (hn : n.Wired) (hidle : n.transport.pending = []) {conn : ConnId} {k : SessionKey}
    (hfind : n.find? conn = some k) : (n.session k).role = .inbound := by
  cases hrole : (n.session k).role with
  | inbound => rfl
  | outbound =>
    have hopen : n.transport.isOpen conn := by rw [hn.isOpen_eq hidle, hfind]; rfl
    obtain ⟨pair, hmem⟩ := hn.outbound conn k hfind hrole hopen
    rw [hidle] at hmem
    cases hmem

theorem outgoing_eq (hn : n.Wired) (hidle : n.transport.pending = []) {p : DomainPair}
    {e : TrustEntry} (he : n.registry.get? p = some e) : e.outgoing = [] := by
  refine List.eq_nil_iff_forall_not_mem.mpr fun l hl => ?_
  obtain ⟨-, hlive, -⟩ := hn.consistent.coherent.links p e he .outbound l hl
  have hkey : l.session ∈ n.outgoingKeys p := by
    simp only [outgoingKeys, he]
    exact List.mem_map.mpr ⟨l, hl, rfl⟩
  have hrole := (hn.consistent.bound.outgoing p l.session hkey).1
  rw [hn.role_eq hidle hlive] at hrole
  cases hrole

end Wired

/-- A server leaves nothing open. Whatever was called at it, when its task is idle the open
connections are those that are there, peers opened all of them, and no pair has a link of ours.
While it acts, every connection that is there and not open waits to be closed. -/
theorem serve_leaves_nothing_open {c : Config} {issued : Nat} {identify : Nat → String}
    {n₀ : Node Channel} (hn₀ : Node.ofConfig c issued identify = .ok n₀) (steps : List ServerStep) :
    let n := n₀.serve c.trust.settings steps
    n.transport.pending = [] ∧
      (∀ conn, n.transport.isOpen conn = (n.find? conn).isSome) ∧
      (∀ conn k, n.find? conn = some k →
        (n.session k).conn = conn ∧ (n.session k).role = .inbound) ∧
      (∀ p e, n.registry.get? p = some e → e.outgoing = []) ∧
      ∀ s m, Passes c.trust.settings n s m → m.ClosesQueued := by
  obtain ⟨hwired₀, hidle₀⟩ := Wired.ofConfig hn₀
  obtain ⟨hwired, hidle⟩ := hwired₀.serve hidle₀ c.trust.settings steps
  refine ⟨hidle, hwired.isOpen_eq hidle, fun conn k hfind => ?_, fun p e he => ?_, fun s m h => ?_⟩
  · exact ⟨(hwired.consistent.wellFormed.live conn k hfind).2, hwired.role_eq hidle hfind⟩
  · exact hwired.outgoing_eq hidle he
  · cases h with
    | during event hcall _ h => exact (hwired.of_call hcall h).queued
    | after s count => exact ((hwired.perform c.trust.settings s).iterate count).queued

/-- A connection that is asked for is failed and closed, and one that was accepted stays. -/
theorem serve_leaves_nothing_open_of_failed_connection :
    let c : Config := { domains := [{ name := "a.example", secret := some "s3cret" }] }
    let table : DomainTable := ⟨[⟨"a.example", "s3cret", false⟩]⟩
    let n₀ : Node Channel := .create c.trust.settings table.directory {} 0
    let opening : ServerStep := .call (.openConnection ⟨"a.example", "b.example"⟩ none) rfl
    let n := n₀.serve c.trust.settings [.accept "peer", opening]
    Node.ofConfig c 0 = .ok n₀ ∧
      n.transport.commands =
        [.connect ⟨2⟩ ⟨"a.example", "b.example"⟩, .close ⟨2⟩ true] ∧
      n.transport.pending = [] ∧ n.transport.opened = [⟨1⟩] ∧ (n.find? ⟨1⟩).isSome ∧
      (n.find? ⟨2⟩).isSome = false ∧
      (serveNext^[1] (n.perform c.trust.settings opening)).ClosesQueued := by
  intro c table n₀ opening n
  have hn₀ : Node.ofConfig c 0 = .ok n₀ := rfl
  obtain ⟨hidle, hopen, -, -, hqueued⟩ := serve_leaves_nothing_open hn₀ [.accept "peer", opening]
  have hopened : n.transport.opened = [⟨1⟩] := by decide +kernel
  refine ⟨hn₀, by decide +kernel, hidle, hopened, ?_, ?_, hqueued opening _ (.after opening 1)⟩
  · rw [← hopen, Channel.isOpen, hopened]
    rfl
  · rw [← hopen, Channel.isOpen, hopened]
    rfl

end Node

end Federation
