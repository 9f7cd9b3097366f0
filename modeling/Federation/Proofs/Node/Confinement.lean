import Federation.Proofs.Node.Coherence

/-!
What a node leaves alone. An operation is confined to some sessions and some pairs if it changes no
entry of another pair and trusts no session for one, tears down no other session, and reaches only
the connections of these sessions, of the links of these pairs and of the sessions that it adds.
-/

namespace Federation

/-- What an operation that is confined to other sessions leaves of a session. -/
def Session.standing (s : Session) : ConnId × List DomainPair × Bool :=
  (s.conn, s.trusted, s.isClosing)

namespace Node

variable {τ : Type}

inductive Within (S : SessionKey → Prop) (P : DomainPair → Prop) (n m : Node τ) : Effect → Prop
  | write (k : SessionKey) (batch : List Element) (accepted : Bool) (hk : k < m.sessions.length)
      (h : S k ∨ (∃ q, P q ∧ k ∈ n.linkKeys q) ∨ n.sessions.length ≤ k) :
      Within S P n m (.write (m.session k).conn batch accepted)
  | connect (p : DomainPair) (conn : Option ConnId) (hp : P p) : Within S P n m (.connect p conn)
  | stop (k : SessionKey) (force : Bool) (hk : k < m.sessions.length)
      (h : S k ∨ n.sessions.length ≤ k) : Within S P n m (.stop (m.session k).conn force)

/-- An operation is confined to some sessions and some pairs, and adds at most so many sessions. -/
structure Confined (S : SessionKey → Prop) (P : DomainPair → Prop) (fresh : ℕ) (n m : Node τ) :
    Prop where
  length_le : n.sessions.length ≤ m.sessions.length
  length_fresh : m.sessions.length ≤ n.sessions.length + fresh
  conn : ∀ k < n.sessions.length, (m.session k).conn = (n.session k).conn
  found : ∀ conn k, n.find? conn = some k → m.find? conn = some k ∨
    ∃ j, n.sessions.length ≤ j ∧ j < m.sessions.length ∧ (m.session j).conn = conn
  entries : ∀ q, ¬ P q → m.registry.get? q = n.registry.get? q
  links : ∀ q, ∀ k ∈ m.linkKeys q, k ∈ n.linkKeys q ∨ S k ∨ n.sessions.length ≤ k
  trusted : ∀ q, ¬ P q → ∀ k, (m.session k).isTrustedFor q = (n.session k).isTrustedFor q
  closing : ∀ k < n.sessions.length, ¬ S k → (m.session k).isClosing = (n.session k).isClosing
  log : ∃ added, m.log = n.log ++ added ∧ ∀ effect ∈ added, Within S P n m effect

section Laws

variable {S S' : SessionKey → Prop} {P : DomainPair → Prop} {fresh fresh' : ℕ} {n m o : Node τ}

/-- An operation without effects. -/
theorem Within.of_log_eq (h : m.log = n.log) :
    ∃ added, m.log = n.log ++ added ∧ ∀ effect ∈ added, Within S P n m effect :=
  ⟨[], by rw [h, List.append_nil], fun _ heffect => absurd heffect List.not_mem_nil⟩

theorem Within.mono {effect : Effect} (h : Within S P n m effect) (hS : ∀ k, S k → S' k) :
    Within S' P n m effect := by
  cases h with
  | write k batch accepted hk h => exact .write k batch accepted hk (h.imp_left (hS k))
  | connect p conn hp => exact .connect p conn hp
  | stop k force hk h => exact .stop k force hk (h.imp_left (hS k))

theorem Confined.mono (h : Confined S P fresh n m) (hS : ∀ k, S k → S' k) :
    Confined S' P fresh n m where
  length_le := h.length_le
  length_fresh := h.length_fresh
  conn := h.conn
  found := h.found
  entries := h.entries
  links := fun q k hk => (h.links q k hk).imp_right fun hother => hother.imp_left (hS k)
  trusted := h.trusted
  closing := fun k hk hnot => h.closing k hk fun hold => hnot (hS k hold)
  log := by
    obtain ⟨added, hlog, hwithin⟩ := h.log
    exact ⟨added, hlog, fun effect heffect => (hwithin effect heffect).mono hS⟩

theorem Confined.weaken (h : Confined S P fresh n m) (hle : fresh ≤ fresh') :
    Confined S P fresh' n m where
  __ := h
  length_fresh := Nat.le_trans h.length_fresh (Nat.add_le_add_left hle _)

/-- What was done before is done on the same connections when more sessions are there. -/
theorem Within.of_before {effect : Effect} (h : Within S P n m effect)
    (hafter : Confined (fun k => S k ∨ n.sessions.length ≤ k) P fresh m o) :
    Within S P n o effect := by
  cases h with
  | write k batch accepted hk h =>
    rw [← hafter.conn k hk]
    exact .write k batch accepted (Nat.lt_of_lt_of_le hk hafter.length_le) h
  | connect p conn hp => exact .connect p conn hp
  | stop k force hk h =>
    rw [← hafter.conn k hk]
    exact .stop k force (Nat.lt_of_lt_of_le hk hafter.length_le) h

/-- What is done afterwards may also be done on the sessions that were added. -/
theorem Within.of_after {effect : Effect}
    (h : Within (fun k => S k ∨ n.sessions.length ≤ k) P m o effect)
    (hbefore : Confined S P fresh n m) : Within S P n o effect := by
  have hlater : ∀ k, m.sessions.length ≤ k → n.sessions.length ≤ k := fun k hk =>
    Nat.le_trans hbefore.length_le hk
  cases h with
  | write k batch accepted hk h =>
    refine .write k batch accepted hk ?_
    rcases h with (hS | hnew) | ⟨q, hq, hlink⟩ | hnew
    · exact Or.inl hS
    · exact Or.inr (Or.inr hnew)
    · rcases hbefore.links q k hlink with hold | hS | hnew
      · exact Or.inr (Or.inl ⟨q, hq, hold⟩)
      · exact Or.inl hS
      · exact Or.inr (Or.inr hnew)
    · exact Or.inr (Or.inr (hlater k hnew))
  | connect p conn hp => exact .connect p conn hp
  | stop k force hk h =>
    refine .stop k force hk ?_
    rcases h with (hS | hnew) | hnew
    · exact Or.inl hS
    · exact Or.inr hnew
    · exact Or.inr (hlater k hnew)

/-- An operation that comes after another one may reach the sessions that this one has added. -/
theorem Confined.trans (h : Confined S P fresh n m)
    (h' : Confined (fun k => S k ∨ n.sessions.length ≤ k) P fresh' m o) :
    Confined S P (fresh + fresh') n o where
  length_le := Nat.le_trans h.length_le h'.length_le
  length_fresh := by
    have hfirst := h.length_fresh
    have hsecond := h'.length_fresh
    omega
  conn := fun k hk =>
    (h'.conn k (Nat.lt_of_lt_of_le hk h.length_le)).trans (h.conn k hk)
  found := by
    intro conn k hfind
    rcases h.found conn k hfind with hstill | ⟨j, hle, hlt, hconn⟩
    · rcases h'.found conn k hstill with hlast | ⟨j, hle, hlt, hconn⟩
      · exact Or.inl hlast
      · exact Or.inr ⟨j, Nat.le_trans h.length_le hle, hlt, hconn⟩
    · exact Or.inr ⟨j, hle, Nat.lt_of_lt_of_le hlt h'.length_le, (h'.conn j hlt).trans hconn⟩
  entries := fun q hq => (h'.entries q hq).trans (h.entries q hq)
  links := by
    intro q k hk
    rcases h'.links q k hk with hmid | (hS | hnew) | hnew
    · exact h.links q k hmid
    · exact Or.inr (Or.inl hS)
    · exact Or.inr (Or.inr hnew)
    · exact Or.inr (Or.inr (Nat.le_trans h.length_le hnew))
  trusted := fun q hq k => (h'.trusted q hq k).trans (h.trusted q hq k)
  closing := by
    intro k hk hnot
    have hold : ¬ (S k ∨ n.sessions.length ≤ k) := by
      rintro (hS | hnew)
      · exact hnot hS
      · exact absurd hk (Nat.not_lt.mpr hnew)
    exact (h'.closing k (Nat.lt_of_lt_of_le hk h.length_le) hold).trans (h.closing k hk hnot)
  log := by
    obtain ⟨added, hlog, hwithin⟩ := h.log
    obtain ⟨added', hlog', hwithin'⟩ := h'.log
    refine ⟨added ++ added', by rw [hlog', hlog, List.append_assoc], ?_⟩
    intro effect heffect
    rcases List.mem_append.mp heffect with hbefore | hafter
    · exact (hwithin effect hbefore).of_before h'
    · exact (hwithin' effect hafter).of_after h

theorem Confined.tail (h : Confined S P fresh n m) (h' : Confined S P fresh' m o) :
    Confined S P (fresh + fresh') n o :=
  h.trans (h'.mono fun _ => Or.inl)

/-- An operation that adds no session and changes no link. -/
theorem Confined.of_frame (hlength : m.sessions.length = n.sessions.length)
    (hlive : m.live = n.live) (hregistry : m.registry = n.registry)
    (hconn : ∀ k, (m.session k).conn = (n.session k).conn)
    (htrusted : ∀ k, (m.session k).trusted = (n.session k).trusted)
    (hclosing : ∀ k, ¬ S k → (m.session k).isClosing = (n.session k).isClosing)
    (hlog : ∃ added, m.log = n.log ++ added ∧ ∀ effect ∈ added, Within S P n m effect) :
    Confined S P 0 n m where
  length_le := Nat.le_of_eq hlength.symm
  length_fresh := Nat.le_of_eq hlength
  conn := fun k _ => hconn k
  found := fun conn k hfind => Or.inl (by rwa [find?, hlive])
  entries := fun q _ => by rw [hregistry]
  links := fun q k hk => Or.inl (by rwa [linkKeys, hregistry] at hk)
  trusted := fun q _ k => by rw [Session.isTrustedFor, htrusted, Session.isTrustedFor]
  closing := fun k _ hnot => hclosing k hnot
  log := hlog

theorem Confined.refl (n : Node τ) : Confined S P 0 n n :=
  .of_frame rfl rfl rfl (fun _ => rfl) (fun _ => rfl) (fun _ _ => rfl)
    (Within.of_log_eq rfl)

theorem Confined.alter {f : Session → Session} (hf : ∀ s, (f s).standing = s.standing)
    (n : Node τ) (k : SessionKey) : Confined S P 0 n (n.alter k f) := by
  have hstanding := view_session_alter Session.standing hf n k
  exact .of_frame (length_sessions_alter n k f) rfl rfl (fun j => congrArg (·.1) (hstanding j))
    (fun j => congrArg (·.2.1) (hstanding j)) (fun j _ => congrArg (·.2.2) (hstanding j))
    (Within.of_log_eq rfl)

theorem Confined.setPhase (n : Node τ) (k : SessionKey) (phase : Phase) :
    Confined S P 0 n (n.alter k (·.setPhase phase)) :=
  .alter (Session.view_setPhase Session.standing (fun _ _ => rfl) phase) n k

end Laws

section Entries

variable {S : SessionKey → Prop} {P : DomainPair → Prop} (n : Node τ) {p : DomainPair} (hp : P p)
  {k : SessionKey}

include hp

theorem Confined.withEntry : Confined S P 0 n (n.withEntry p) where
  length_le := Nat.le_refl _
  length_fresh := Nat.le_refl _
  conn := fun _ _ => rfl
  found := fun _ _ hfind => Or.inl hfind
  entries := fun q hq => Registry.get?_ensure_of_ne n.registry fun heq => hq (heq ▸ hp)
  links := by
    intro q j hj
    refine Or.inl ?_
    unfold linkKeys Node.withEntry at hj
    by_cases hq : q = p
    · rw [hq, Registry.get?_ensure_self] at hj
      rw [hq, linkKeys]
      cases hget : n.registry.get? p with
      | none => simp [hget, TrustEntry.links] at hj
      | some e => simpa [hget] using hj
    · rwa [Registry.get?_ensure_of_ne n.registry hq] at hj
  trusted := fun _ _ _ => rfl
  closing := fun _ _ _ => rfl
  log := Within.of_log_eq rfl

theorem Confined.addLink (hk : S k ∨ k ∈ n.linkKeys p) : Confined S P 0 n (n.addLink p k) where
  length_le := Nat.le_of_eq (length_sessions_addLink n p k).symm
  length_fresh := Nat.le_of_eq (length_sessions_addLink n p k)
  conn := fun j _ => view_session_addLink n p k Session.conn (fun _ => rfl) j
  found := fun conn j hfind => Or.inl (by rwa [find?, live_addLink])
  entries := by
    intro q hq
    rw [registry_addLink_eq]
    exact Registry.get?_alter_of_ne (TrustEntry.pair_add _ _) n.registry fun heq => hq (heq ▸ hp)
  links := by
    intro q j hj
    obtain ⟨e, he, side, l, hl, rfl⟩ := mem_linkKeys_iff.mp hj
    rcases of_get?_addLink he hl with ⟨rfl, rfl⟩ | ⟨e₀, he₀, hl₀⟩
    · exact hk.symm.imp_right Or.inl
    · exact Or.inl (mem_linkKeys_iff.mpr ⟨e₀, he₀, side, l, hl₀, rfl⟩)
  trusted := fun q _ j => view_session_addLink n p k (·.isTrustedFor q) (fun _ => rfl) j
  closing := fun j _ _ => view_session_addLink n p k Session.isClosing (fun _ => rfl) j
  log := Within.of_log_eq (log_addLink n p k)

theorem Confined.trust (hk : S k ∨ k ∈ n.linkKeys p) : Confined S P 0 n (n.trust p k) := by
  have hadded : Confined S P 0 n (n.addLink p k) := .addLink n hp hk
  have hview : ∀ {α : Type} (view : Session → α), (∀ s, view (s.markTrusted p) = view s) →
      ∀ j, view ((n.trust p k).session j) = view ((n.addLink p k).session j) := fun view hf =>
    view_session_alter view hf (n.addLink p k) k
  have hlength := length_sessions_alter (n.addLink p k) k (·.markTrusted p)
  have hmarked : Confined S P 0 (n.addLink p k) (n.trust p k) :=
    { length_le := Nat.le_of_eq hlength.symm
      length_fresh := Nat.le_of_eq hlength
      conn := fun j _ => hview Session.conn (fun _ => rfl) j
      found := fun conn j hfind => Or.inl hfind
      entries := by
        intro q hq
        have hne : q ≠ p := by
          rintro rfl
          exact hq hp
        exact Registry.get?_alter_of_ne (f := TrustEntry.authenticate) (fun _ => rfl) _ hne
      links := by
        intro q j hj
        obtain ⟨e, he, side, l, hl, rfl⟩ := mem_linkKeys_iff.mp hj
        obtain ⟨e₀, he₀, hside⟩ := of_get?_trust he
        rw [hside] at hl
        exact Or.inl (mem_linkKeys_iff.mpr ⟨e₀, he₀, side, l, hl, rfl⟩)
      trusted := by
        intro q hq j
        have hne : (q == p) = false := by
          rw [beq_eq_false_iff_ne]
          rintro rfl
          exact hq hp
        refine hview (·.isTrustedFor q) (fun s => ?_) j
        rw [Session.isTrustedFor_markTrusted, hne, Bool.false_or]
      closing := fun j _ _ => hview Session.isClosing (fun _ => rfl) j
      log := Within.of_log_eq rfl }
  exact hadded.tail hmarked

end Entries

section Opening

variable {S : SessionKey → Prop} {P : DomainPair → Prop} {n : Node τ}

/-- One session is added, for a connection whose session it may replace. -/
theorem Confined.of_opening {m : Node τ} (conn : ConnId)
    (hlength : m.sessions.length = n.sessions.length + 1)
    (hold : ∀ k < n.sessions.length, m.session k = n.session k)
    (hconn : (m.session n.sessions.length).conn = conn)
    (htrusted : (m.session n.sessions.length).trusted = [])
    (hfound : ∀ other ≠ conn, m.find? other = n.find? other)
    (hentries : ∀ q, ¬ P q → m.registry.get? q = n.registry.get? q)
    (hlinks : ∀ q, ∀ k ∈ m.linkKeys q, k ∈ n.linkKeys q ∨ k = n.sessions.length)
    (hlog : m.log = n.log) : Confined S P 1 n m where
  length_le := by omega
  length_fresh := by omega
  conn := fun k hk => by rw [hold k hk]
  found := by
    intro other k hfind
    by_cases hother : other = conn
    · exact Or.inr ⟨n.sessions.length, Nat.le_refl _, by omega, hconn.trans hother.symm⟩
    · exact Or.inl ((hfound other hother).trans hfind)
  entries := hentries
  links := by
    intro q k hk
    rcases hlinks q k hk with hlink | rfl
    · exact Or.inl hlink
    · exact Or.inr (Or.inr (Nat.le_refl _))
  trusted := by
    intro q hq k
    rcases Nat.lt_trichotomy k n.sessions.length with hlt | rfl | hgt
    · rw [hold k hlt]
    · rw [Session.isTrustedFor, htrusted, session_of_length_le (Nat.le_refl _)]
      rfl
    · rw [session_of_length_le (n := m) (by omega), session_of_length_le (Nat.le_of_lt hgt)]
  closing := fun k hk _ => by rw [hold k hk]
  log := Within.of_log_eq hlog

theorem Confined.accept (conn : ConnId) (address : String) :
    Confined S P 1 n (n.accept conn address).2 := by
  have hself : (n.accept conn address).2.session n.sessions.length =
      .accepted conn address n.nextIdentifier := session_addSession_self n _
  refine .of_opening conn ?_ ?_ ?_ ?_ ?_ ?_ ?_ rfl
  · simp [Node.accept, addSession, register]
  · intro k hk
    exact session_addSession_of_lt hk _
  · rw [hself]
    rfl
  · rw [hself]
    rfl
  · intro other hother
    exact find?_register_of_ne _ hother _
  · intro q _
    rfl
  · intro q k hk
    exact Or.inl hk

variable {p : DomainPair} (hp : P p) (relayFor : Option String) (conn : ConnId)

theorem mem_linkKeys_establish {q : DomainPair} {k : SessionKey}
    (hk : k ∈ (n.establish p relayFor conn).linkKeys q) :
    k ∈ n.linkKeys q ∨ k = n.sessions.length := by
  let added := (n.addSession (.opened conn p relayFor n.nextIdentifier)).register conn
    n.sessions.length
  obtain ⟨e, he, side, l, hl, rfl⟩ := mem_linkKeys_iff.mp hk
  rw [establish_eq_addLink] at he
  rcases of_get?_addLink (n := added) he hl with ⟨rfl, -⟩ | ⟨e₀, he₀, hl₀⟩
  · exact Or.inr rfl
  · exact Or.inl (mem_linkKeys_iff.mpr ⟨e₀, he₀, side, l, hl₀, rfl⟩)

include hp

theorem get?_establish_of_not {q : DomainPair} (hq : ¬ P q) :
    (n.establish p relayFor conn).registry.get? q = n.registry.get? q := by
  have hne : q ≠ p := by
    rintro rfl
    exact hq hp
  rw [registry_establish]
  exact Registry.get?_alter_of_ne (f := (·.addOutgoing ⟨conn, n.sessions.length⟩)) (fun _ => rfl)
    n.registry hne

theorem Confined.establish : Confined S P 1 n (n.establish p relayFor conn) := by
  have hsession := session_establish n p relayFor conn
  refine .of_opening conn (length_sessions_establish n p relayFor conn) ?_ ?_ ?_ ?_
    (fun q => get?_establish_of_not hp relayFor conn)
    (fun q k => mem_linkKeys_establish relayFor conn) rfl
  · intro k hk
    rw [hsession, if_neg (Nat.ne_of_lt hk)]
  · rw [hsession, if_pos rfl]
    rfl
  · rw [hsession, if_pos rfl]
    rfl
  · intro other hother
    exact find?_register_of_ne _ hother _

/-- A connection that is dead when it is opened leaves the pair that it was opened for. -/
theorem Confined.establish_connectionClosed :
    Confined S P 1 n ((n.establish p relayFor conn).connectionClosed conn) := by
  let opened := n.establish p relayFor conn
  have hfind : opened.find? conn = some n.sessions.length := find?_register_self _ _ _
  have hself : opened.session n.sessions.length =
      (Session.opened conn p relayFor n.nextIdentifier).join p :=
    (session_establish n p relayFor conn _).trans (if_pos rfl)
  have hjoined : (opened.session n.sessions.length).joined = [p] := by
    rw [hself]
    rfl
  have hregistry := registry_connectionClosed hfind
  have hsession := session_connectionClosed hfind
  have hclosed : ∀ {α : Type} (view : Session → α), (∀ s, view s.beginClose.clearQueue = view s) →
      view ((opened.connectionClosed conn).session n.sessions.length) =
        view ((Session.opened conn p relayFor n.nextIdentifier).join p) := by
    intro α view hview
    rw [view_session_connectionClosed hfind view hview, hself]
  refine .of_opening conn ?_ ?_ (hclosed Session.conn fun _ => rfl)
    (hclosed Session.trusted fun _ => rfl) ?_ ?_ ?_ ?_
  · rw [length_sessions_connectionClosed hfind]
    exact length_sessions_establish n p relayFor conn
  · intro k hk
    rw [hsession, if_neg fun hboth => Nat.ne_of_lt hk hboth.1]
    exact (session_establish n p relayFor conn k).trans (if_neg (Nat.ne_of_lt hk))
  · intro other hother
    exact (find?_connectionClosed_of_ne hfind hother).trans (find?_register_of_ne _ hother _)
  · intro q hq
    have hleft : q ∉ (opened.session n.sessions.length).joined := by
      rw [hjoined, List.mem_singleton]
      rintro rfl
      exact hq hp
    rw [hregistry, Registry.get?_foldl_unlink, if_neg hleft]
    exact get?_establish_of_not hp relayFor conn hq
  · intro q k hk
    obtain ⟨e, he, side, l, hl, rfl⟩ := mem_linkKeys_iff.mp hk
    rw [hregistry] at he
    obtain ⟨e₀, he₀, -, hincoming, houtgoing⟩ := Registry.get?_foldl_unlink_eq_some he
    have hmem : l ∈ e₀.side side := by
      cases side with
      | inbound => exact (hincoming l hl).1
      | outbound => exact (houtgoing l hl).1
    exact mem_linkKeys_establish relayFor conn
      (mem_linkKeys_iff.mpr ⟨e₀, he₀, side, l, hmem, rfl⟩)
  · simp only [connectionClosed, opened] at hfind ⊢
    rw [hfind]
    rfl

end Opening

section Surroundings

variable [Transport τ] {S : SessionKey → Prop} {P : DomainPair → Prop} {n : Node τ} {k : SessionKey}

theorem live_stop (n : Node τ) (k : SessionKey) (force : Bool) :
    (n.stop k force).live = n.live := by
  unfold stop
  split <;> rfl

theorem Confined.sendNow (hk : k < n.sessions.length) (h : S k ∨ ∃ q, P q ∧ k ∈ n.linkKeys q)
    (stanza : Element) : Confined S P 0 n (n.sendNow k stanza).2 := by
  obtain ⟨accepted, hlog⟩ := log_write n (n.session k).conn [stanza]
  refine .of_frame rfl rfl rfl (fun _ => rfl) (fun _ => rfl) (fun _ _ => rfl) ⟨_, hlog, ?_⟩
  intro effect heffect
  rw [List.mem_singleton.mp heffect]
  exact Within.write (m := (n.sendNow k stanza).2) k [stanza] accepted hk (h.imp_right Or.inl)

/-- A queue that is written belongs to a session that is there. -/
theorem Confined.flush (h : S k ∨ ∃ q, P q ∧ k ∈ n.linkKeys q) :
    Confined S P 0 n (n.flush k).2 := by
  by_cases hk : k < n.sessions.length
  · have hview : ∀ {α : Type} (view : Session → α), (∀ s, view s.clearQueue = view s) →
        ∀ j, view ((n.flush k).2.session j) = view (n.session j) := fun view hf =>
      view_session_flush n view hf k
    refine .of_frame (length_sessions_flush n k) (live_flush n k) (registry_flush n k)
      (hview Session.conn fun _ => rfl) (hview Session.trusted fun _ => rfl)
      (fun j _ => hview Session.isClosing (fun _ => rfl) j) ?_
    rcases log_flush n k with hlog | ⟨accepted, hlog⟩
    · exact Within.of_log_eq hlog
    · refine ⟨_, hlog, fun effect heffect => ?_⟩
      rw [List.mem_singleton.mp heffect, ← hview Session.conn (fun _ => rfl) k]
      refine .write k _ accepted ?_ (h.imp_right Or.inl)
      rwa [length_sessions_flush]
  · have hempty : (n.session k).waiting = [] := by
      rw [session_of_length_le (Nat.not_lt.mp hk)]
      rfl
    rw [flush_eq, if_pos hempty]
    exact .refl n

theorem Confined.stop (hk : k < n.sessions.length) (h : S k) (force : Bool) :
    Confined S P 0 n (n.stop k force) := by
  have hview : ∀ {α : Type} (view : Session → α), (∀ s, view s.beginClose = view s) →
      ∀ j, view ((n.stop k force).session j) = view (n.session j) := fun view hf j =>
    view_session_stop n view hf k j force
  refine .of_frame (length_sessions_stop n k force) (live_stop n k force) (registry_stop n k force)
    (hview Session.conn fun _ => rfl) (hview Session.trusted fun _ => rfl) ?_ ?_
  · intro j hj
    have hne : j ≠ k := by
      rintro rfl
      exact hj h
    rw [session_stop, if_neg fun hboth => hne hboth.1]
  · have hconn := hview Session.conn (fun _ => rfl) k
    have hlength := length_sessions_stop n k force
    by_cases hclosing : (n.session k).isClosing
    · have hsame : n.stop k force = n := by
        simp only [Node.stop, hclosing, if_true]
      exact Within.of_log_eq (congrArg Node.log hsame)
    · refine ⟨[.stop (n.session k).conn force], ?_, fun effect heffect => ?_⟩
      · simp only [Node.stop, hclosing]
        rfl
      · rw [List.mem_singleton.mp heffect, ← hconn]
        exact .stop k force (by rwa [hlength]) (Or.inl h)

theorem Confined.failStream (hk : k < n.sessions.length) (h : S k) (condition : String)
    (force : Bool) : Confined S P 0 n (n.failStream k condition force) :=
  (Confined.sendNow hk (Or.inl h) _).tail (Confined.stop (n := (n.sendNow k _).2) hk h force)

theorem Confined.connect {p : DomainPair} (hp : P p) : Confined S P 0 n (n.connect p).2 := by
  refine .of_frame rfl rfl rfl (fun _ => rfl) (fun _ => rfl) (fun _ _ => rfl)
    ⟨_, log_connect n p, ?_⟩
  intro effect heffect
  rw [List.mem_singleton.mp heffect]
  exact .connect p _ hp

theorem Confined.flushPair {p : DomainPair} (hp : P p) : Confined S P 0 n (n.flushPair p) := by
  have hfold : ∀ (keys : List SessionKey) (n : Node τ), (∀ k ∈ keys, k ∈ n.linkKeys p) →
      Confined S P 0 n (keys.foldl flushIfUp n) := by
    intro keys
    induction keys with
    | nil => exact fun n _ => .refl n
    | cons k rest ih =>
      intro n hkeys
      have hfirst : Confined S P 0 n (n.flushIfUp k) := by
        unfold flushIfUp
        split
        · exact .refl n
        · exact .flush (Or.inr ⟨p, hp, hkeys k List.mem_cons_self⟩)
      refine hfirst.tail (ih (n.flushIfUp k) ?_)
      intro j hj
      rw [linkKeys, registry_flushIfUp]
      exact hkeys j (List.mem_cons_of_mem k hj)
  exact hfold (n.linkKeys p) n fun _ hk => hk

theorem Confined.authenticate {p : DomainPair} (hp : P p) (hk : S k ∨ k ∈ n.linkKeys p) :
    Confined S P 0 n (n.authenticate p k) :=
  (Confined.trust n hp hk).tail (.flushPair hp)

end Surroundings

end Node

end Federation
