import Federation.Proofs.Node.Locality

/-!
What outlives an event. A connection that is there stays there until its own end is reported, and
the entry of a trusted pair stays, trusted, as long as the connection of one of its links does.
Since an entry goes with its last link, a trusted pair always has links.
-/

namespace Federation

/-- A registry has lost nothing: its entries are there with the links they had, and those that were
trusted are. -/
def Registry.Extends (r r' : Registry) : Prop :=
  ∀ p e, r.get? p = some e → ∃ e', r'.get? p = some e' ∧
    (e.isAuthenticated → e'.isAuthenticated) ∧ ∀ side, ∀ l ∈ e.side side, l ∈ e'.side side

theorem Registry.Extends.of_eq {r r' : Registry} (h : r' = r) : r.Extends r' := by
  intro p e he
  exact ⟨e, by rw [h, he], id, fun _ _ hl => hl⟩

namespace Node

variable {τ : Type}

theorem extends_addLink (n : Node τ) (p : DomainPair) (k : SessionKey) :
    n.registry.Extends (n.addLink p k).registry := by
  intro q e he
  obtain ⟨e', he', hauth, hkeep⟩ := exists_get?_addLink (p := p) (k := k) he
  exact ⟨e', he', fun h => hauth.trans h, hkeep⟩

theorem extends_trust (n : Node τ) (p : DomainPair) (k : SessionKey) :
    n.registry.Extends (n.trust p k).registry := by
  intro q e he
  obtain ⟨e', he', hauth, hkeep⟩ := exists_get?_addLink (p := p) (k := k) he
  obtain ⟨e'', he'', hside, hauth'⟩ := exists_get?_trust he'
  refine ⟨e'', he'', fun h => hauth' (hauth.trans h), fun side l hl => ?_⟩
  rw [hside]
  exact hkeep side l hl

/-- The end of a connection takes nothing from an entry but the links of this connection, and takes
the entry only if none is left. -/
theorem of_get?_connectionClosed {n : Node τ} {conn : ConnId} {k : SessionKey}
    (hfind : n.find? conn = some k) {p : DomainPair} {e' : TrustEntry}
    (he' : (n.connectionClosed conn).registry.get? p = some e') :
    n.registry.get? p = some e' ∨ e'.links ≠ [] := by
  rw [registry_connectionClosed hfind, Registry.get?_foldl_unlink] at he'
  split at he'
  · have hlinks := (Option.filter_eq_some_iff.mp he').2
    exact Or.inr (by simpa using hlinks)
  · exact Or.inl he'

variable [Transport τ]

/-- Nothing is lost from the registry but by the end of a connection. -/
theorem Move.extends_or_closes {n m : Node τ} {c : Cause} (h : Move c n m) :
    n.registry.Extends m.registry ∨
      ∃ conn k, n.find? conn = some k ∧ m = n.connectionClosed conn := by
  cases h with
  | ensure p hconcerns =>
    refine Or.inl ?_
    intro q e he
    exact ⟨e, Registry.get?_ensure_of_eq_some he, id, fun _ _ hl => hl⟩
  | join k stanza p hrole =>
    have hsame : n.addIncoming p k = n.addLink p k := by simp only [addLink, hrole]
    rw [hsame]
    exact Or.inl (extends_addLink n p k)
  | offerKey k p => exact Or.inl (.of_eq (registry_offerKey n k p _))
  | flush k => exact Or.inl (.of_eq (registry_flush n k))
  | stop k force => exact Or.inl (.of_eq (registry_stop n k force))
  | grantVerdict k stanza p =>
    exact Or.inl (extends_trust (n.alter k (·.dropKeyRequest p.peer)) p k)
  | grantCertificate k stanza pair p => exact Or.inl (extends_trust n p k)
  | grantRelayed r t stanza p id =>
    exact Or.inl (extends_trust (n.alter r (·.dropVerifyRequest p.peer id)) p t)
  | establish p relayFor conn =>
    rw [establish_eq_addLink]
    exact Or.inl (extends_addLink (((n.connect p).2.addSession
      (.opened conn p relayFor (n.connect p).2.nextIdentifier)).register conn
        (n.connect p).2.sessions.length) p (n.connect p).2.sessions.length)
  | close conn k hfind => exact Or.inr ⟨conn, k, hfind, rfl⟩
  | _ => exact Or.inl (.of_eq rfl)

omit [Transport τ] in
/-- A pair that is trusted was so before, or has become it with a link. -/
theorem EntryChange.trusted_or_linked {n m : Node τ} {c : Cause} {p : DomainPair} {e : TrustEntry}
    (h : EntryChange n m c p e) (hauth : e.isAuthenticated) :
    (∃ e₀, n.registry.get? p = some e₀ ∧ e₀.isAuthenticated) ∨ e.links ≠ [] := by
  cases h with
  | kept _ he => exact Or.inl ⟨e, he, hauth⟩
  | fresh => cases hauth
  | reduced e₀ _ he hsame => exact Or.inl ⟨e₀, he, hsame ▸ hauth⟩
  | joined e₀ he => exact Or.inl ⟨e₀, he, hauth⟩
  | linked e₀ he => exact Or.inl ⟨e₀, he, hauth⟩
  | grantedInbound e₀ he k =>
    obtain ⟨l, hl, -⟩ := Link.mem_insert_self (n.link k) e₀.incoming
    exact Or.inr (List.ne_nil_of_mem (List.mem_append_right _ hl))
  | grantedOutbound e₀ he k =>
    obtain ⟨l, hl, -⟩ := Link.mem_insert_self (n.link k) e₀.outgoing
    exact Or.inr (List.ne_nil_of_mem (List.mem_append_left _ hl))

def IsLinked (n : Node τ) : Prop :=
  ∀ p e, n.registry.get? p = some e → e.isAuthenticated → e.links ≠ []

theorem Move.isLinked {n m : Node τ} {c : Cause} (h : Move c n m) (hn : n.IsLinked) :
    m.IsLinked := by
  intro p e he hauth
  rcases h.extends_or_closes with hextends | ⟨conn, k, hfind, rfl⟩
  · rcases (h.entryChange he).trusted_or_linked hauth with ⟨e₀, he₀, hauth₀⟩ | hlinks
    · obtain ⟨l, hl⟩ := List.exists_mem_of_ne_nil _ (hn p e₀ he₀ hauth₀)
      obtain ⟨side, hside⟩ := TrustEntry.mem_links_iff.mp hl
      obtain ⟨e', he', -, hkeep⟩ := hextends p e₀ he₀
      have hsame : e' = e := Option.some.inj (he'.symm.trans he)
      rw [hsame] at hkeep
      exact List.ne_nil_of_mem (TrustEntry.mem_links_of_mem_side (hkeep side l hside))
    · exact hlinks
  · rcases of_get?_connectionClosed hfind he with hold | hlinks
    · exact hn p e hold hauth
    · exact hlinks

/-- A trusted pair keeps its entry while one of its connections stays. -/
theorem Moves.isAuthenticated_of_found {n m : Node τ} {c : Cause} (h : Moves c n m)
    (hn : n.WellFormed) {p : DomainPair} {e : TrustEntry} (he : n.registry.get? p = some e)
    (hauth : e.isAuthenticated) {side : Role} {l : Link} (hl : l ∈ e.side side)
    (hlt : l.session < n.sessions.length) (hfind : m.find? l.conn = some l.session) :
    ∃ e', m.registry.get? p = some e' ∧ e'.isAuthenticated ∧ l ∈ e'.side side := by
  induction h with
  | refl => exact ⟨e, he, hauth, hl⟩
  | tail hmoves hmove ih =>
    rename_i b d
    have hwellFormed := Moves.wellFormed hmoves hn
    have hbefore : b.find? l.conn = some l.session := by
      rcases hmove.find?_eq_some hfind with hold | ⟨hnew, -⟩
      · exact hold
      · have hle := Moves.length_le hmoves
        rw [hnew] at hlt
        exact absurd hlt (Nat.not_lt.mpr hle)
    obtain ⟨e', he', hauth', hl'⟩ := ih hbefore
    rcases hmove.extends_or_closes with hextends | ⟨conn, k, hclosed, rfl⟩
    · obtain ⟨e'', he'', hauth'', hkeep⟩ := hextends p e' he'
      exact ⟨e'', he'', hauth'' hauth', hkeep side l hl'⟩
    · have hne : l.conn ≠ conn := by
        intro heq
        rw [heq, find?, live_connectionClosed hclosed] at hfind
        have hgone := find?_unregister_self b conn
        rw [find?, unregister] at hgone
        rw [hgone] at hfind
        cases hfind
      have hown := (hwellFormed.live conn k hclosed).2
      rw [registry_connectionClosed hclosed, hown]
      obtain ⟨e'', he'', hsame, hmem⟩ := Registry.exists_get?_foldl_unlink he' hl' hne
      exact ⟨e'', he'', hsame.trans hauth', hmem⟩

section Found

variable {n : Node τ} (hn : n.WellFormed) (hbound : n.Bound) (settings : Settings) (event : Event)

theorem live_runDue (n : Node τ) : n.runDue.live = n.live := by
  have hexpire : ∀ (n : Node τ) k, (n.expire k).live = n.live := by
    intro n k
    unfold expire
    split
    · exact live_stop n k true
    · rfl
  have hfold : ∀ (alarms : List Alarm) (n : Node τ),
      (alarms.foldl (fun n alarm => n.expire alarm.session) n).live = n.live := by
    intro alarms
    induction alarms with
    | nil => exact fun _ => rfl
    | cons alarm rest ih => exact fun n => (ih _).trans (hexpire n alarm.session)
  exact hfold _ _

include hn hbound

/-- Except at its own end, a connection stays with its session or gets a new one. -/
theorem found_step {conn : ConnId} {k : SessionKey} (hfind : n.find? conn = some k)
    (hopen : event ≠ .connectionClosed conn) :
    let m := n.step (Chain.standard settings) event
    m.find? conn = some k ∨
      ∃ j, n.sessions.length ≤ j ∧ j < m.sessions.length ∧ (m.session j).conn = conn := by
  intro m
  have hsame : m.live = n.live → m.find? conn = some k ∨
      ∃ j, n.sessions.length ≤ j ∧ j < m.sessions.length ∧ (m.session j).conn = conn := by
    intro hlive
    exact Or.inl (by rwa [find?, hlive])
  have hconfined : ∀ fresh, Confined (fun _ => True) (fun _ => True) fresh n m →
      m.find? conn = some k ∨
        ∃ j, n.sessions.length ≤ j ∧ j < m.sessions.length ∧ (m.session j).conn = conn :=
    fun _ h => h.found conn k hfind
  cases event with
  | accept other address => exact hconfined 1 (.accept other address)
  | openConnection pair relayFor =>
    cases hcheck : DomainPair.checked pair.own pair.peer n.directory.isServed with
    | error e =>
      apply hsame
      simp only [m, step, openConnection, entry_eq hn.entries, hcheck]
    | ok p => exact hconfined 1 (Confined.openConnection hn.entries trivial hcheck relayFor).1
  | serviceStarted other =>
    apply hsame
    simp only [m, step, serviceStarted, standard_eq]
    split <;> rfl
  | streamOpened other header =>
    cases hother : n.find? other with
    | none =>
      apply hsame
      simp only [m, step, streamOpened, hother]
    | some s =>
      have hs := (hn.live other s hother).1
      exact hconfined 0 (.streamOpened hs trivial hother settings header)
  | receive other stanza =>
    cases hother : n.find? other with
    | none =>
      apply hsame
      simp only [m, step, receive, hother]
    | some s =>
      exact hconfined 1 (.receive hn hother trivial (fun _ _ => trivial) hbound settings)
  | tlsCompleted other trust =>
    apply hsame
    simp only [m, step, tlsCompleted]
    split <;> rfl
  | connectionClosed other =>
    have hne : conn ≠ other := fun heq => hopen (heq ▸ rfl)
    cases hother : n.find? other with
    | none =>
      apply hsame
      simp only [m, step, connectionClosed, hother]
    | some s => exact Or.inl ((find?_connectionClosed_of_ne hother hne).trans hfind)
  | send pair stanza =>
    apply hsame
    simp only [m, step, send]
    split <;> rfl
  | requestVerification pair id key =>
    cases hcheck : DomainPair.checked pair.own pair.peer n.directory.isServed with
    | error e =>
      apply hsame
      simp only [m, step, requestVerification, entry_eq hn.entries, hcheck]
    | ok p => exact hconfined 1 (.requestVerification hn.entries trivial hcheck id key)
  | advance milliseconds => exact hsame (live_runDue _)

/-- A connection stays with its session but for its own end, if no two sessions share one. -/
theorem find?_step_of_nodup {conn : ConnId} {k : SessionKey} (hfind : n.find? conn = some k)
    (hopen : event ≠ .connectionClosed conn)
    (hconns : ((n.step (Chain.standard settings) event).sessions.map (·.conn)).Nodup) :
    (n.step (Chain.standard settings) event).find? conn = some k := by
  rcases found_step hn hbound settings event hfind hopen with hstill | ⟨j, hnew, hj, hconn⟩
  · exact hstill
  · obtain ⟨hk, hown⟩ := hn.live conn k hfind
    have hmoves := step_moves hn settings event
    have hkept := (Session.conn_eq (hmoves.identity_eq hk)).trans hown
    have hsame := eq_of_nodup hconns hj (Nat.lt_of_lt_of_le hk hmoves.length_le)
      (hconn.trans hkept.symm)
    rw [hsame] at hnew
    exact absurd hk (Nat.not_lt.mpr hnew)

/-- The trust in a pair is lost only with the connection of all its links. -/
theorem Coherent.isAuthenticated_step_or_closed (h : n.Coherent) (hlinked : n.IsLinked)
    (hconns : ((n.step (Chain.standard settings) event).sessions.map (·.conn)).Nodup)
    {p : DomainPair} (hauth : n.registry.isAuthenticated p) :
    (n.step (Chain.standard settings) event).registry.isAuthenticated p ∨
      ∃ conn k, event = .connectionClosed conn ∧ n.find? conn = some k ∧
        ∀ e, n.registry.get? p = some e → e.links ≠ [] ∧ ∀ l ∈ e.links, l.conn = conn := by
  obtain ⟨e, he, hentry⟩ := Registry.isAuthenticated_eq_true.mp hauth
  have hfound : ∀ side, ∀ l ∈ e.side side, n.find? l.conn = some l.session := by
    intro side l hl
    obtain ⟨hconn, hlive, -⟩ := h.links p e he side l hl
    rw [hconn]
    exact hlive
  by_cases hother : ∃ side, ∃ l ∈ e.side side, event ≠ .connectionClosed l.conn
  · obtain ⟨side, l, hl, hopen⟩ := hother
    have hstill := find?_step_of_nodup hn hbound settings event (hfound side l hl) hopen hconns
    obtain ⟨e', he', hauth', -⟩ := (step_moves hn settings event).isAuthenticated_of_found hn he
      hentry hl (hn.live _ _ (hfound side l hl)).1 hstill
    exact Or.inl (Registry.isAuthenticated_eq_true.mpr ⟨e', he', hauth'⟩)
  · have hall : ∀ side, ∀ l ∈ e.side side, event = .connectionClosed l.conn := by
      intro side l hl
      by_contra hopen
      exact hother ⟨side, l, hl, hopen⟩
    have hlinks := hlinked p e he hentry
    obtain ⟨l, hl⟩ := List.exists_mem_of_ne_nil _ hlinks
    obtain ⟨side, hside⟩ := TrustEntry.mem_links_iff.mp hl
    refine Or.inr ⟨l.conn, l.session, hall side l hside, hfound side l hside, ?_⟩
    intro e' he'
    have hsame : e' = e := Option.some.inj (he'.symm.trans he)
    rw [hsame]
    refine ⟨hlinks, fun l' hl' => ?_⟩
    obtain ⟨side', hside'⟩ := TrustEntry.mem_links_iff.mp hl'
    exact Event.connectionClosed.inj ((hall side' l' hside').symm.trans (hall side l hside))

end Found

end Node

end Federation
