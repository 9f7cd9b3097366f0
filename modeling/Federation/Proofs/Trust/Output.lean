import Federation.Proofs.Node.Deeds
import Federation.Proofs.Trust.Authority
import Federation.Proofs.Trust.Lifetime
import Federation.Transport.Channel
import Federation.Transport.Simulated

/-!
The end of what a node has to say on a connection. A connection is stopped once at most, and takes
nothing afterwards. A node that complains of a stream stops the connection at once, so its complaint
is the last that is written there.

All ways to end a connection go through one flag of its session. So the invariant is that the
connections that were stopped are down and belong to sessions with this flag, and that a session
with this flag whose connection is there has been stopped.
-/

namespace Federation

/-- What may come after an effect: a connection that was stopped takes nothing more and is not
stopped again. -/
def Effect.Allows (earlier later : Effect) : Prop :=
  ∀ conn force, earlier = .stop conn force →
    (∀ batch, later ≠ .write conn batch true) ∧ ∀ again, later ≠ .stop conn again

/-- A stream error that is taken is the whole batch, and its connection is stopped next. -/
def Effect.Concludes (effects : List Effect) : Prop :=
  ∀ before conn batch rest, effects = before ++ .write conn batch true :: rest →
    ∀ e ∈ batch, Stanza.isStreamError e →
      batch = [e] ∧ ∃ force more, rest = .stop conn force :: more

namespace Effect.Concludes

theorem of_not_error {effects : List Effect} (h : ∀ conn batch, .write conn batch true ∈ effects →
    ∀ e ∈ batch, Stanza.isStreamError e = false) : Concludes effects := by
  intro before conn batch rest heq e he herror
  have hmem : Effect.write conn batch true ∈ effects := by simp [heq]
  rw [h conn batch hmem e he] at herror
  cases herror

theorem nil : Concludes [] :=
  of_not_error fun _ _ h => by cases h

theorem append {effects later : List Effect} (h : Concludes effects) (h' : Concludes later) :
    Concludes (effects ++ later) := by
  intro before conn batch rest heq e he herror
  rcases List.append_eq_append_iff.mp heq with ⟨mid, -, hlater⟩ | ⟨mid, heffects, hrest⟩
  · exact h' mid conn batch rest hlater e he herror
  · cases mid with
    | nil => exact h' [] conn batch rest hrest.symm e he herror
    | cons first mid =>
      obtain ⟨rfl, rfl⟩ := List.cons.inj hrest
      obtain ⟨hbatch, force, more, rfl⟩ := h before conn batch mid heffects e he herror
      exact ⟨hbatch, force, more ++ later, rfl⟩

/-- A complaint that is followed by the end of the connection. -/
theorem complaint (conn : ConnId) (e : Element) (accepted force : Bool) :
    Concludes [.write conn [e] accepted, .stop conn force] := by
  intro before other batch rest heq e' he' herror
  cases before with
  | nil =>
    obtain ⟨hwrite, rfl⟩ := List.cons.inj heq
    obtain ⟨rfl, rfl, -⟩ := Effect.write.inj hwrite
    rw [List.mem_singleton.mp he']
    exact ⟨rfl, force, [], rfl⟩
  | cons first before =>
    have hmem : Effect.write other batch true ∈ [Effect.stop conn force] := by
      rw [(List.cons.inj heq).2]
      simp
    cases List.mem_singleton.mp hmem

end Effect.Concludes

/-- A transport that closes what is stopped, and rejects what is written on a connection that is
down. Only a connection that it starts anew comes up again. -/
structure Transport.ShutsDown {τ : Type} [Transport τ] (down : τ → ConnId → Prop) : Prop where
  rejects : ∀ {t conn}, down t conn → ∀ batch, (Transport.write t conn batch).1.isOk = false
  write : ∀ {t conn}, down t conn → ∀ other batch, down (Transport.write t other batch).2 conn
  connect : ∀ {t conn}, down t conn → ∀ {pair}, (Transport.connect t pair).1 ≠ .ok conn →
    down (Transport.connect t pair).2 conn
  stop : ∀ {t conn}, down t conn → ∀ other force, down (Transport.stop t other force) conn
  stopped : ∀ t conn force, down (Transport.stop t conn force) conn

/-- What the simulated transport has closed is down. -/
theorem Simulated.shutsDown :
    Transport.ShutsDown fun (t : Simulated) conn => t.isOpen conn = false where
  rejects := by
    intro t conn h batch
    show (t.write conn batch).1.isOk = false
    simp [write, h, Except.isOk, Except.toBool]
  write := by
    intro t conn h other batch
    show (t.write other batch).2.isOpen conn = false
    unfold write
    split <;> exact h
  connect := by
    intro t conn h pair hne
    show (t.connect pair).2.isOpen conn = false
    unfold connect
    cases t.mode with
    | refuse => exact h
    | succeed => exact h
    | dieAtOnce => simp_all [isOpen, close]
  stop := by
    intro t conn h other force
    show (t.close other).isOpen conn = false
    simp_all [isOpen, close]
  stopped := by
    intro t conn force
    show (t.close conn).isOpen conn = false
    simp [isOpen, close]

/-- What is not open in a channel is down. -/
theorem Channel.shutsDown :
    Transport.ShutsDown fun (t : Channel) conn => t.isOpen conn = false where
  rejects := by
    intro t conn h batch
    show (t.write conn batch).1.isOk = false
    simp [write, h, Except.isOk, Except.toBool]
  write := by
    intro t conn h other batch
    show (t.write other batch).2.isOpen conn = false
    unfold write
    split
    · exact (isOpen_emit t _ conn).trans h
    · exact h
  connect := by
    intro t conn h pair hne
    show (t.connect pair).2.isOpen conn = false
    replace hne : (t.connect pair).1 ≠ .ok conn := hne
    unfold connect at hne ⊢
    split
    · rename_i hreceiving
      rw [if_pos hreceiving] at hne
      have hother : (conn == t.nextConn) = false := by
        rw [beq_eq_false_iff_ne]
        rintro rfl
        exact hne rfl
      rw [isOpen_emit, isOpen_allocate, h, hother, Bool.or_self]
    · exact h
  stop := by
    intro t conn h other force
    show (t.close other force).isOpen conn = false
    rw [isOpen_close, h, Bool.false_and]
  stopped := by
    intro t conn force
    show (t.close conn force).isOpen conn = false
    rw [isOpen_close, bne_self_eq_false, Bool.and_false]

namespace Node

variable {τ : Type}

def HasStopped (n : Node τ) (conn : ConnId) : Prop :=
  ∃ force, Effect.stop conn force ∈ n.log

structure Orderly (down : τ → ConnId → Prop) (n : Node τ) : Prop where
  down : ∀ conn, n.HasStopped conn → down n.transport conn
  owned : ∀ conn, n.HasStopped conn →
    ∃ k < n.sessions.length, (n.session k).conn = conn ∧ (n.session k).isClosing
  stopped : ∀ k, n.IsLive k → (n.session k).isClosing → n.HasStopped (n.session k).conn
  once : n.log.Pairwise Effect.Allows
  waiting : ∀ k, ∀ e ∈ (n.session k).waiting, (DialbackKind.of? e).isSome
  alarms : ∀ alarm ∈ n.alarms, alarm.session < n.sessions.length

theorem orderly_create (down : τ → ConnId → Prop) (settings : Settings) (directory : Directory)
    (transport : τ) (issued : Nat) (identify : Nat → String) :
    (create settings directory transport issued identify).Orderly down where
  down := fun _ ⟨_, h⟩ => by cases h
  owned := fun _ ⟨_, h⟩ => by cases h
  stopped := fun _ h => by cases h
  once := .nil
  waiting := fun k e he => by
    rw [session_create] at he
    cases he
  alarms := fun _ h => by cases h

variable {down : τ → ConnId → Prop} {n m : Node τ}

theorem hasStopped_congr (hlog : m.log = n.log) (conn : ConnId) :
    m.HasStopped conn ↔ n.HasStopped conn := by
  rw [HasStopped, HasStopped, hlog]

theorem hasStopped_iff_of_log {effect : Effect} (hlog : m.log = n.log ++ [effect])
    (hother : ∀ conn force, effect ≠ .stop conn force) (conn : ConnId) :
    m.HasStopped conn ↔ n.HasStopped conn := by
  refine exists_congr fun force => ?_
  rw [hlog, List.mem_append, List.mem_singleton]
  exact or_iff_left fun h => hother conn force h.symm

section Stop

variable [Transport τ] {k : SessionKey}

theorem stop_of_open (hopen : (n.session k).isClosing = false) (force : Bool) :
    n.stop k force = (n.alter k Session.beginClose).halt (n.session k).conn force := by
  simp only [Node.stop, hopen, Bool.false_eq_true, if_false]

theorem log_stop_of_open (hopen : (n.session k).isClosing = false) (force : Bool) :
    (n.stop k force).log = n.log ++ [.stop (n.session k).conn force] := by
  rw [stop_of_open hopen]
  rfl

theorem hasStopped_stop_iff (hopen : (n.session k).isClosing = false) (force : Bool)
    (conn : ConnId) :
    (n.stop k force).HasStopped conn ↔ n.HasStopped conn ∨ conn = (n.session k).conn := by
  unfold HasStopped
  rw [log_stop_of_open hopen]
  simp only [List.mem_append, List.mem_singleton, exists_or, Effect.stop.injEq]
  simp

theorem isClosing_stop_iff (hk : k < n.sessions.length) (force : Bool) (j : SessionKey) :
    ((n.stop k force).session j).isClosing ↔ (n.session j).isClosing ∨ j = k := by
  rw [session_stop]
  by_cases hj : j = k
  · subst hj
    by_cases hopen : (n.session j).isClosing = false
    · rw [if_pos ⟨rfl, hk, hopen⟩]
      exact iff_of_true rfl (Or.inr rfl)
    · rw [if_neg fun h => hopen h.2.2]
      exact iff_of_true (by simpa using hopen) (Or.inr rfl)
  · rw [if_neg fun h => hj h.1, or_iff_left hj]

end Stop

/-- An effect that comes last is one that all others allow. -/
theorem pairwise_concat {log : List Effect} {effect : Effect} (h : log.Pairwise Effect.Allows)
    (hlast : ∀ earlier ∈ log, earlier.Allows effect) :
    (log ++ [effect]).Pairwise Effect.Allows := by
  refine List.pairwise_append.mpr ⟨h, List.pairwise_singleton _ _, ?_⟩
  intro earlier hearlier later hlater
  rw [List.mem_singleton.mp hlater]
  exact hlast earlier hearlier

namespace Orderly

theorem internal (hn : n.Orderly down) (h : Internal n m) : m.Orderly down := by
  have hstopped := hasStopped_congr h.log
  refine ⟨?_, ?_, ?_, by rw [h.log]; exact hn.once, ?_, ?_⟩
  · intro conn hconn
    rw [h.transport]
    exact hn.down conn ((hstopped conn).mp hconn)
  · intro conn hconn
    obtain ⟨k, hk, hsame, hclosing⟩ := hn.owned conn ((hstopped conn).mp hconn)
    exact ⟨k, by rwa [h.length], (h.conn k).trans hsame, (h.closing k).trans hclosing⟩
  · intro k hlive hclosing
    rw [h.conn, hstopped]
    exact hn.stopped k ((h.isLive_iff k).mp hlive) ((h.closing k).symm.trans hclosing)
  · intro k e he
    exact (h.waiting k e he).elim (hn.waiting k e) id
  · intro alarm halarm
    rw [h.length]
    exact hn.alarms alarm (h.alarms alarm halarm)

/-- A new session changes nothing for the others. -/
theorem opening (hn : n.Orderly down) (conn : ConnId) (htransport : m.transport = n.transport)
    (hlog : m.log = n.log) (hlength : m.sessions.length = n.sessions.length + 1)
    (hold : ∀ k < n.sessions.length, m.session k = n.session k)
    (hnew : (m.session n.sessions.length).isClosing = false)
    (hempty : (m.session n.sessions.length).waiting = [])
    (hself : m.find? conn = some n.sessions.length)
    (hfind : ∀ other ≠ conn, m.find? other = n.find? other)
    (halarms : m.alarms = n.alarms) : m.Orderly down := by
  have hstopped := hasStopped_congr hlog
  have hsession : ∀ k, k < n.sessions.length ∧ m.session k = n.session k ∨
      (m.session k).isClosing = false ∧ (m.session k).waiting = [] := by
    intro k
    rcases Nat.lt_trichotomy k n.sessions.length with hlt | rfl | hgt
    · exact Or.inl ⟨hlt, hold k hlt⟩
    · exact Or.inr ⟨hnew, hempty⟩
    · rw [session_of_length_le (n := m) (by omega)]
      exact Or.inr ⟨rfl, rfl⟩
  refine ⟨?_, ?_, ?_, by rw [hlog]; exact hn.once, ?_, ?_⟩
  · intro conn hconn
    rw [htransport]
    exact hn.down conn ((hstopped conn).mp hconn)
  · intro conn hconn
    obtain ⟨k, hk, hsame, hclosing⟩ := hn.owned conn ((hstopped conn).mp hconn)
    exact ⟨k, by omega, by rw [hold k hk, hsame], by rw [hold k hk, hclosing]⟩
  · intro k hlive hclosing
    rcases hsession k with ⟨hlt, hsame⟩ | ⟨hopen, -⟩
    · rw [hsame] at hclosing
      rw [IsLive, hsame] at hlive
      have hother : (n.session k).conn ≠ conn := by
        intro heq
        rw [heq, hself] at hlive
        exact Nat.ne_of_lt hlt (Option.some.inj hlive).symm
      rw [hfind _ hother] at hlive
      rw [hsame, hstopped]
      exact hn.stopped k hlive hclosing
    · rw [hopen] at hclosing
      cases hclosing
  · intro k e he
    rcases hsession k with ⟨-, hsame⟩ | ⟨-, hnone⟩
    · rw [hsame] at he
      exact hn.waiting k e he
    · rw [hnone] at he
      cases he
  · intro alarm halarm
    rw [halarms] at halarm
    exact Nat.lt_of_lt_of_le (hn.alarms alarm halarm) (by omega)

/-- A connection that ends on its own is not there any more. -/
theorem close (hn : n.Orderly down) {conn : ConnId} {k : SessionKey}
    (hfind : n.find? conn = some k) (hconn : (n.session k).conn = conn) :
    (n.connectionClosed conn).Orderly down := by
  have hlength := length_sessions_connectionClosed hfind
  have hsession := session_connectionClosed hfind
  have hsame := view_session_connectionClosed hfind Session.conn fun _ => rfl
  have hrest : (n.connectionClosed conn).transport = n.transport ∧
      (n.connectionClosed conn).alarms = n.alarms := by
    simp only [connectionClosed, hfind]
    exact ⟨rfl, rfl⟩
  obtain ⟨htransport, halarms⟩ := hrest
  have hstopped := hasStopped_congr (m := n.connectionClosed conn) log_connectionClosed
  refine ⟨?_, ?_, ?_, by rw [log_connectionClosed]; exact hn.once, ?_, ?_⟩
  · intro conn' hstop
    rw [htransport]
    exact hn.down conn' ((hstopped conn').mp hstop)
  · intro conn' hstop
    obtain ⟨j, hj, howns, hclosing⟩ := hn.owned conn' ((hstopped conn').mp hstop)
    refine ⟨j, by rwa [hlength], (hsame j).trans howns, ?_⟩
    rw [hsession]
    split
    · rfl
    · exact hclosing
  · intro j hlive hclosing
    obtain ⟨hold, hne⟩ := of_isLive_connectionClosed hfind hlive
    have hother : j ≠ k := by
      rintro rfl
      exact hne hconn
    rw [hsession, if_neg fun h => hother h.1] at hclosing ⊢
    exact (hstopped _).mpr (hn.stopped j hold hclosing)
  · intro j e he
    rw [hsession] at he
    split at he
    · cases he
    · exact hn.waiting j e he
  · intro alarm halarm
    rw [halarms] at halarm
    rw [hlength]
    exact hn.alarms alarm halarm

theorem arm (hn : n.Orderly down) (timeout : Duration) {k : SessionKey}
    (hk : k < n.sessions.length) : (n.arm timeout k).Orderly down := by
  have hstopped : ∀ conn, (n.arm timeout k).HasStopped conn ↔ n.HasStopped conn :=
    hasStopped_iff_of_log rfl fun _ _ => Effect.noConfusion
  refine ⟨fun conn h => hn.down conn ((hstopped conn).mp h),
    fun conn h => hn.owned conn ((hstopped conn).mp h),
    fun j hlive hclosing => (hstopped _).mpr (hn.stopped j hlive hclosing), ?_, hn.waiting, ?_⟩
  · exact pairwise_concat hn.once fun _ _ _ _ _ =>
      ⟨fun _ => Effect.noConfusion, fun _ => Effect.noConfusion⟩
  · intro alarm halarm
    rcases List.mem_append.mp halarm with hold | hnew
    · exact hn.alarms alarm hold
    · rw [List.mem_singleton.mp hnew]
      exact hk

variable [Transport τ] (hshuts : Transport.ShutsDown down)

include hshuts

/-- What is written on a connection that was stopped is not taken. -/
theorem isOk_write (hn : n.Orderly down) {conn : ConnId} (h : n.HasStopped conn)
    (batch : List Element) : (n.write conn batch).1.isOk = false :=
  hshuts.rejects (hn.down conn h) batch

theorem write (hn : n.Orderly down) (conn : ConnId) (batch : List Element) :
    (n.write conn batch).2.Orderly down := by
  have hlog : (n.write conn batch).2.log =
      n.log ++ [.write conn batch (n.write conn batch).1.isOk] := rfl
  have hstopped := hasStopped_iff_of_log hlog fun _ _ => Effect.noConfusion
  refine ⟨fun other h => hshuts.write (hn.down other ((hstopped other).mp h)) conn batch,
    fun other h => hn.owned other ((hstopped other).mp h),
    fun j hlive hclosing => (hstopped _).mpr (hn.stopped j hlive hclosing), ?_, hn.waiting,
    hn.alarms⟩
  rw [hlog]
  refine pairwise_concat hn.once fun earlier hearlier other force hstop => ?_
  refine ⟨fun again heq => ?_, fun _ => Effect.noConfusion⟩
  obtain ⟨rfl, -, haccepted⟩ := Effect.write.inj heq
  rw [hn.isOk_write hshuts ⟨force, hstop ▸ hearlier⟩] at haccepted
  cases haccepted

theorem flush (hn : n.Orderly down) (k : SessionKey) : (n.flush k).2.Orderly down := by
  have hcleared : (n.alter k Session.clearQueue).Orderly down := by
    have hview : ∀ {α : Type} (view : Session → α), (∀ s, view s.clearQueue = view s) →
        ∀ j, view ((n.alter k Session.clearQueue).session j) = view (n.session j) :=
      fun view hf => view_session_alter view hf n k
    refine hn.internal ⟨rfl, rfl, rfl, length_sessions_alter n k _, hview _ fun _ => rfl,
      hview _ fun _ => rfl, fun j e he => Or.inl ?_, fun _ h => h⟩
    rw [session_alter] at he
    split at he
    · cases he
    · exact he
  rw [flush_eq]
  split
  · exact hn
  · exact hcleared.write hshuts _ _

/-- A session that is not being torn down has a connection that was not stopped. -/
theorem stop (hn : n.Orderly down) (hconns : (n.sessions.map (·.conn)).Nodup) {k : SessionKey}
    (hk : k < n.sessions.length) (force : Bool) : (n.stop k force).Orderly down := by
  by_cases hclosing : (n.session k).isClosing
  · have hsame : n.stop k force = n := by simp only [Node.stop, hclosing, if_true]
    rwa [hsame]
  have hopen : (n.session k).isClosing = false := by simpa using hclosing
  have hview : ∀ {α : Type} (view : Session → α), (∀ s, view s.beginClose = view s) →
      ∀ j, view ((n.stop k force).session j) = view (n.session j) := fun view hf j =>
    view_session_stop n view hf k j force
  have hstopped := hasStopped_stop_iff hopen force
  have hdone := isClosing_stop_iff hk force
  refine ⟨?_, ?_, ?_, ?_, ?_, ?_⟩
  · intro conn hconn
    rw [stop_of_open hopen]
    rcases (hstopped conn).mp hconn with hold | rfl
    · exact hshuts.stop (hn.down conn hold) _ force
    · exact hshuts.stopped _ _ force
  · intro conn hconn
    rw [length_sessions_stop]
    rcases (hstopped conn).mp hconn with hold | rfl
    · obtain ⟨j, hj, hsame, hold⟩ := hn.owned conn hold
      exact ⟨j, hj, (hview Session.conn (fun _ => rfl) j).trans hsame, (hdone j).mpr (Or.inl hold)⟩
    · exact ⟨k, hk, hview Session.conn (fun _ => rfl) k, (hdone k).mpr (Or.inr rfl)⟩
  · intro j hlive hj
    rw [hview Session.conn fun _ => rfl, hstopped]
    rcases (hdone j).mp hj with hold | rfl
    · rw [IsLive, find?, live_stop, hview Session.conn fun _ => rfl] at hlive
      exact Or.inl (hn.stopped j hlive hold)
    · exact Or.inr rfl
  · rw [log_stop_of_open hopen]
    refine pairwise_concat hn.once fun earlier hearlier conn again hstop => ?_
    refine ⟨fun _ => Effect.noConfusion, fun other heq => ?_⟩
    obtain ⟨rfl, -⟩ := Effect.stop.inj heq
    obtain ⟨j, hj, hsame, hold⟩ := hn.owned _ ⟨again, hstop ▸ hearlier⟩
    rw [eq_of_nodup hconns hj hk hsame, hopen] at hold
    cases hold
  · intro j e he
    rw [hview Session.waiting fun _ => rfl] at he
    exact hn.waiting j e he
  · intro alarm halarm
    rw [stop_of_open hopen] at halarm
    rw [length_sessions_stop]
    exact hn.alarms alarm halarm

theorem connect (hn : n.Orderly down) {p : DomainPair}
    (hfresh : ∀ conn, (n.connect p).1 = .ok conn → ¬ n.HasStopped conn) :
    (n.connect p).2.Orderly down := by
  have hstopped := hasStopped_iff_of_log (log_connect n p) fun _ _ => Effect.noConfusion
  refine ⟨fun conn h => ?_, fun conn h => hn.owned conn ((hstopped conn).mp h),
    fun j hlive hclosing => (hstopped _).mpr (hn.stopped j hlive hclosing), ?_, hn.waiting,
    hn.alarms⟩
  · have hold := (hstopped conn).mp h
    exact hshuts.connect (hn.down conn hold) fun hsame => hfresh conn hsame hold
  · rw [log_connect]
    exact pairwise_concat hn.once fun _ _ _ _ _ =>
      ⟨fun _ => Effect.noConfusion, fun _ => Effect.noConfusion⟩

end Orderly

variable [Transport τ] (hshuts : Transport.ShutsDown down)

include hshuts

theorem Deed.orderly (h : Deed n m) (hconns : (m.sessions.map (·.conn)).Nodup)
    (hn : n.Orderly down) : m.Orderly down := by
  cases h with
  | internal h => exact hn.internal h
  | sendNow k _ => exact hn.write hshuts _ _
  | flush k => exact hn.flush hshuts k
  | stop hk force =>
    have hgrown := Deed.conns_prefix (.stop hk force)
    exact hn.stop hshuts (hgrown.sublist.nodup hconns) hk force
  | failStream hk hlive condition force =>
    have hgrown := Deed.conns_prefix (.failStream hk hlive condition force)
    exact (hn.write hshuts _ _).stop hshuts (hgrown.sublist.nodup hconns) hk force
  | accept conn address =>
    refine hn.opening conn rfl rfl ?_ ?_ ?_ ?_ ?_ ?_ rfl
    · simp [Node.accept, addSession, register]
    · exact fun k hk => session_addSession_of_lt hk _
    · exact congrArg Session.isClosing (session_addSession_self n _)
    · exact congrArg Session.waiting (session_addSession_self n _)
    · exact find?_register_self _ _ _
    · exact fun other hother => find?_register_of_ne _ hother _
  | refuse hrefused =>
    exact hn.connect hshuts fun conn hconn => by rw [hrefused] at hconn; cases hconn
  | @establish p conn hconnected relayFor =>
    have hsession := session_establish (n.connect p).2 p relayFor conn
    have hself := hsession n.sessions.length
    rw [sessions_connect, if_pos rfl] at hself
    have hlength := length_sessions_establish (n.connect p).2 p relayFor conn
    rw [sessions_connect] at hlength
    have hold : ∀ k < n.sessions.length,
        ((n.connect p).2.establish p relayFor conn).session k = n.session k := fun k hk => by
      rw [hsession, sessions_connect, if_neg (Nat.ne_of_lt hk)]
      rfl
    have hfresh : ¬ n.HasStopped conn := by
      intro hstop
      obtain ⟨j, hj, hsame, -⟩ := hn.owned conn hstop
      have hlast :
          n.sessions.length < ((n.connect p).2.establish p relayFor conn).sessions.length :=
        Nat.lt_of_lt_of_eq (Nat.lt_succ_self _) hlength.symm
      refine Nat.ne_of_lt hj (eq_of_nodup hconns (Nat.lt_trans hj hlast) hlast ?_)
      rw [hold j hj, hself]
      exact hsame
    have hopened : (n.connect p).2.Orderly down := hn.connect hshuts fun other hother => by
      rw [hconnected] at hother
      cases hother
      exact hfresh
    refine hopened.opening conn rfl rfl hlength hold ?_ ?_ ?_ ?_ rfl
    · rw [sessions_connect, hself]
      rfl
    · rw [sessions_connect, hself]
      rfl
    · exact find?_register_self _ _ _
    · exact fun other hother => find?_register_of_ne _ hother _
  | close hfind hconn => exact hn.close hfind hconn
  | arm timeout hk => exact hn.arm timeout hk

theorem Deeds.orderly (h : Deeds n m) (hconns : (m.sessions.map (·.conn)).Nodup)
    (hn : n.Orderly down) : m.Orderly down := by
  induction h with
  | refl => exact hn
  | tail _ hdeed ih =>
    exact hdeed.orderly hshuts hconns (ih (hdeed.conns_prefix.sublist.nodup hconns))

/-- A node complains of a stream in one way: the connection is torn down at once, or nothing is
taken there any more. -/
theorem Deed.concludes (h : Deed n m) (hn : n.Orderly down) :
    ∃ added, m.log = n.log ++ added ∧ Effect.Concludes added := by
  have hnone : ∀ {m' : Node τ}, m'.log = n.log →
      ∃ added, m'.log = n.log ++ added ∧ Effect.Concludes added := fun hlog =>
    ⟨[], by rw [hlog, List.append_nil], .nil⟩
  have hother : ∀ {m' : Node τ} {effect : Effect}, m'.log = n.log ++ [effect] →
      (∀ conn batch, effect ≠ .write conn batch true) →
      ∃ added, m'.log = n.log ++ added ∧ Effect.Concludes added := fun hlog hne =>
    ⟨_, hlog, .of_not_error fun conn batch hw => absurd (List.mem_singleton.mp hw).symm
      (hne conn batch)⟩
  have hwrite : ∀ {m' : Node τ} {conn : ConnId} {batch : List Element} {accepted : Bool},
      m'.log = n.log ++ [.write conn batch accepted] →
      (∀ e ∈ batch, (DialbackKind.of? e).isSome) →
      ∃ added, m'.log = n.log ++ added ∧ Effect.Concludes added := by
    intro m' conn batch accepted hlog hbatch
    refine ⟨_, hlog, .of_not_error fun other batch' hw e he => ?_⟩
    obtain ⟨-, rfl, -⟩ := Effect.write.inj (List.mem_singleton.mp hw)
    obtain ⟨kind, hkind⟩ := Option.isSome_iff_exists.mp (hbatch e he)
    exact isStreamError_of_dialback hkind
  cases h with
  | internal h => exact hnone h.log
  | sendNow k hstanza =>
    refine hwrite rfl fun e he => ?_
    rw [List.mem_singleton.mp he]
    exact hstanza
  | flush k =>
    rcases log_flush n k with hlog | ⟨accepted, hlog⟩
    · exact hnone hlog
    · exact hwrite hlog (hn.waiting k)
  | stop hk force =>
    unfold Node.stop
    split
    · exact hnone rfl
    · exact hother rfl fun _ _ => Effect.noConfusion
  | @failStream k hk hlive condition force =>
    let complained := (n.sendNow k (Stanza.streamError condition)).2
    have hlog : complained.log = n.log ++ [.write (n.session k).conn [Stanza.streamError condition]
        (n.sendNow k (Stanza.streamError condition)).1.isOk] := rfl
    by_cases hclosing : (n.session k).isClosing
    · have hsame : n.failStream k condition force = complained := if_pos hclosing
      have hrejected := hn.isOk_write hshuts (hn.stopped k hlive hclosing)
        [Stanza.streamError condition]
      rw [hsame]
      refine hother hlog fun conn batch heq => ?_
      have haccepted := (Effect.write.inj heq).2.2
      rw [Node.sendNow, hrejected] at haccepted
      cases haccepted
    · have hsame : n.failStream k condition force =
          (complained.alter k Session.beginClose).halt (n.session k).conn force := if_neg hclosing
      rw [hsame]
      refine ⟨_, ?_, .complaint (n.session k).conn (Stanza.streamError condition)
        (n.sendNow k (Stanza.streamError condition)).1.isOk force⟩
      show complained.log ++ [.stop (n.session k).conn force] = _
      rw [hlog, List.append_assoc]
      rfl
  | accept => exact hnone rfl
  | refuse => exact hother (log_connect n _) fun _ _ => Effect.noConfusion
  | establish hconnected relayFor => exact hother (log_connect n _) fun _ _ => Effect.noConfusion
  | close hfind hconn =>
    refine hnone ?_
    simp only [connectionClosed, hfind]
    rfl
  | arm => exact hother rfl fun _ _ => Effect.noConfusion

theorem Deeds.concludes (h : Deeds n m) (hconns : (m.sessions.map (·.conn)).Nodup)
    (hn : n.Orderly down) : ∃ added, m.log = n.log ++ added ∧ Effect.Concludes added := by
  induction h with
  | refl => exact ⟨[], (List.append_nil _).symm, .nil⟩
  | tail hdeeds hdeed ih =>
    have hconns' := hdeed.conns_prefix.sublist.nodup hconns
    obtain ⟨before, hbefore, hends⟩ := ih hconns'
    obtain ⟨added, hadded, hlast⟩ := hdeed.concludes hshuts (Deeds.orderly hshuts hdeeds hconns' hn)
    exact ⟨before ++ added, by rw [hadded, hbefore, List.append_assoc], hends.append hlast⟩

end Node

namespace Setup

variable {τ : Type} [Transport τ] (setup : Setup τ) {down : τ → ConnId → Prop}
  (hshuts : Transport.ShutsDown down)

def StaysDown (down : τ → ConnId → Prop) (past : List (Occurrence τ)) : Prop :=
  ∀ before transport pinned rest, past = before ++ .drift transport pinned :: rest →
    ∀ conn, (setup.after before).HasStopped conn → down transport conn

theorem StaysDown.of_append {past rest : List (Occurrence τ)}
    (h : setup.StaysDown down (past ++ rest)) : setup.StaysDown down past := by
  rintro before transport pinned after rfl
  exact h before transport pinned (after ++ rest) (by simp)

include hshuts

theorem orderly_after {past : List (Occurrence τ)}
    (hconns : ((setup.after past).sessions.map (·.conn)).Nodup)
    (hdrift : setup.StaysDown down past) : (setup.after past).Orderly down := by
  induction past using List.reverseRecOn with
  | nil => exact Node.orderly_create _ _ _ _ _ _
  | append_singleton past o ih =>
    have hn := ih (setup.nodup_conns_of_append hconns) (hdrift.of_append setup)
    rw [after_snoc] at hconns ⊢
    cases o with
    | drift transport pinned =>
      exact { hn with down := hdrift past transport pinned [] rfl }
    | event event =>
      by_cases hsend : ∃ pair stanza, event = .send pair stanza
      · obtain ⟨pair, stanza, rfl⟩ := hsend
        rw [next_event]
        simp only [Node.step, Node.send]
        split
        · exact hn
        · exact hn.write hshuts _ _
      · exact (Node.step_deeds (setup.wellFormed_after past) setup.settings hn.alarms
          fun pair stanza h => hsend ⟨pair, stanza, h⟩).orderly hshuts hconns hn

/-- A node keeps its output in order. Of every connection it asks the end at most once, and nothing
that it writes there later is taken. If it complains of the stream there, on its own and not with
the traffic of a caller, it says nothing else with it and asks for the end of the connection next,
so that nothing follows. -/
theorem output_ends_with_teardown {past : List (Occurrence τ)}
    (hconns : ((setup.after past).sessions.map (·.conn)).Nodup)
    (hdrift : setup.StaysDown down past) :
    (∀ before conn force rest,
      (setup.after past).log = before ++ .stop conn force :: rest →
      (∀ again, Effect.stop conn again ∉ before ++ rest) ∧
        ∀ batch, Effect.write conn batch true ∉ rest) ∧
    ∀ before event rest, past = before ++ .event event :: rest →
      (∀ pair stanza, event ≠ .send pair stanza) →
      ∃ added, (setup.after (before ++ [.event event])).log = (setup.after before).log ++ added ∧
        Effect.Concludes added := by
  refine ⟨?_, ?_⟩
  · intro before conn force rest hlog
    have honce := (setup.orderly_after hshuts hconns hdrift).once
    rw [hlog] at honce
    obtain ⟨-, hafter, hbefore⟩ := List.pairwise_append.mp honce
    have hlater := (List.pairwise_cons.mp hafter).1
    refine ⟨fun again hmem => ?_, fun batch hmem => (hlater _ hmem conn force rfl).1 batch rfl⟩
    rcases List.mem_append.mp hmem with hearlier | hmem
    · exact (hbefore _ hearlier _ List.mem_cons_self conn again rfl).2 force rfl
    · exact (hlater _ hmem conn force rfl).2 again rfl
  · rintro before event rest rfl hsend
    have hsplit : before ++ .event event :: rest = (before ++ [.event event]) ++ rest := by simp
    rw [hsplit] at hconns
    have hconns' := setup.nodup_conns_of_append (setup.nodup_conns_of_append hconns)
    have hn := setup.orderly_after hshuts hconns' (hdrift.of_append setup)
    have hconns'' := setup.nodup_conns_of_append hconns
    rw [after_snoc] at hconns'' ⊢
    exact (Node.step_deeds (setup.wellFormed_after before) setup.settings hn.alarms
      hsend).concludes hshuts hconns'' hn

omit hshuts in
/-- The first stanza without addresses ends its connection, and what is said about the second one is
not taken any more. -/
theorem output_ends_with_teardown_of_no_address :
    let unaddressed : Event := .receive ⟨1⟩ ⟨"db:result", [], none, []⟩
    let complaint (accepted : Bool) : Effect :=
      .write ⟨1⟩ [Stanza.streamError "improper-addressing"] accepted
    let past : List (Occurrence Simulated) :=
      [.event (.accept ⟨1⟩ "peer"), .event unaddressed, .event unaddressed]
    (served.after past).log = [complaint true, .stop ⟨1⟩ false, complaint false] ∧
      (∀ again, Effect.stop ⟨1⟩ again ∉ [complaint true] ++ [complaint false]) ∧
      (∀ batch, Effect.write ⟨1⟩ batch true ∉ [complaint false]) ∧
      ∃ added, (served.after (past.take 2)).log = (served.after (past.take 1)).log ++ added ∧
        Effect.Concludes added := by
  intro unaddressed complaint past
  have hlog : (served.after past).log = [complaint true, .stop ⟨1⟩ false, complaint false] := by
    rw [after_eq_foldl]
    decide +kernel
  have hconns : ((served.after past).sessions.map (·.conn)).Nodup := by
    rw [after_eq_foldl]
    decide +kernel
  have hdrift : served.StaysDown (fun (t : Simulated) conn => t.isOpen conn = false) past := by
    intro before transport pinned rest heq
    have hmem : Occurrence.drift transport pinned ∈ past := by rw [heq]; simp
    simp [past] at hmem
  obtain ⟨honce, hconcludes⟩ :=
    served.output_ends_with_teardown Simulated.shutsDown hconns hdrift
  obtain ⟨hstop, hwrite⟩ := honce [complaint true] ⟨1⟩ false [complaint false] hlog
  exact ⟨hlog, hstop, hwrite, hconcludes [.event (.accept ⟨1⟩ "peer")] unaddressed
    [.event unaddressed] rfl fun _ _ => Event.noConfusion⟩

end Setup

end Federation
