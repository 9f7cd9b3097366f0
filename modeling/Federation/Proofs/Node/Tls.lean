import Federation.Proofs.Node.History

/-!
TLS over a history. A session has TLS from the event at which a handshake was reported for its
connection, and which pairs demand TLS is settled at the start.
-/

namespace Federation

namespace Node

variable {τ : Type} [Transport τ]

/-- What is known about the TLS of a session changes only when a handshake is reported
for its connection. -/
theorem Change.tls_cases {n m : Node τ} {c : Cause} {k : SessionKey} {s : Session}
    (h : Change n m c k s) :
    s.tlsActive = (n.session k).tlsActive ∧ s.trust = (n.session k).trust ∨
      ∃ conn trust, c = .call (.tlsCompleted conn trust) ∧ s = (n.session k).recordTls trust := by
  rcases h.notes_cases with hsame | ⟨conn, trust, hcause, hs⟩ | ⟨header, id, -, -, rfl⟩
  · exact Or.inl ⟨congrArg (·.1) hsame, congrArg (·.2.1) hsame⟩
  · exact Or.inr ⟨conn, trust, hcause, hs⟩
  · exact Or.inl ⟨rfl, rfl⟩

theorem Change.tlsActive_of_tlsActive {n m : Node τ} {c : Cause} {k : SessionKey} {s : Session}
    (h : Change n m c k s) (htls : (n.session k).tlsActive) : s.tlsActive := by
  rcases h.tls_cases with ⟨hsame, -⟩ | ⟨_, _, -, rfl⟩
  · rw [hsame]
    exact htls
  · rfl

/-- A certificate is checked only as a part of the handshake. -/
theorem Change.tlsActive_of_trusted {n m : Node τ} {c : Cause} {k : SessionKey} {s : Session}
    (h : Change n m c k s) (hold : (n.session k).trust = .trusted → (n.session k).tlsActive)
    (htrust : s.trust = .trusted) : s.tlsActive := by
  rcases h.tls_cases with ⟨hactive, hsame⟩ | ⟨_, _, -, rfl⟩
  · rw [hactive]
    exact hold (hsame.symm.trans htrust)
  · rfl

theorem Moves.tlsActive_of_tlsActive {n m : Node τ} {c : Cause} (h : Moves c n m) {k : SessionKey}
    (htls : (n.session k).tlsActive) : (m.session k).tlsActive :=
  h.kept (P := fun n => (n.session k).tlsActive)
    (fun hmove hn => (hmove.change k).tlsActive_of_tlsActive hn) htls

theorem Move.settings_eq {n m : Node τ} {c : Cause} (h : Move c n m) :
    m.settings = n.settings := by
  have hflush : ∀ (n : Node τ) k, (n.flush k).2.settings = n.settings := by
    intro n k
    rw [flush_eq]
    split <;> rfl
  have htrust : ∀ (n : Node τ) p k, (n.trust p k).settings = n.settings := by
    intro n p k
    unfold trust addLink
    split <;> rfl
  cases h with
  | offerKey k p => exact hflush _ k
  | flush k hmay => exact hflush n k
  | stop k force =>
    unfold Node.stop
    split <;> rfl
  | grantVerdict | grantCertificate | grantRelayed => exact htrust _ _ _
  | close conn k hfind =>
    simp only [connectionClosed, hfind]
    rfl
  | _ => rfl

theorem Moves.demandsTls_eq {n m : Node τ} {c : Cause} (h : Moves c n m) (p : DomainPair) :
    m.demandsTls p = n.demandsTls p := by
  induction h with
  | refl => rfl
  | tail _ hmove ih =>
    rw [← ih, demandsTls, demandsTls, skipsTls, skipsTls, hmove.settings_eq, hmove.directory_eq]

end Node

namespace Setup

variable {τ : Type} [Transport τ] (setup : Setup τ)

def demandsTls (p : DomainPair) : Bool :=
  !(setup.settings.skipTlsHosts.map Text.lower).contains (Text.lower p.peer) &&
    setup.directory.requiresTls p.own

/-- A handshake was reported for the connection that a session had then. -/
def TlsCompleted (past : List (Occurrence τ)) (k : SessionKey) : Prop :=
  ∃ before conn trust rest, past = before ++ .event (.tlsCompleted conn trust) :: rest ∧
    (setup.after before).find? conn = some k

omit [Transport τ] in
theorem skipsTls_start (peer : String) :
    setup.start.skipsTls peer =
      (setup.settings.skipTlsHosts.map Text.lower).contains (Text.lower peer) := by
  rw [Bool.eq_iff_iff]
  simp only [Node.skipsTls, start, Node.create, List.contains_iff_mem, List.mem_eraseDups]

theorem settings_after (past : List (Occurrence τ)) :
    (setup.after past).settings = setup.start.settings :=
  setup.invariant (P := fun n => n.settings = setup.start.settings) rfl
    (fun hmove hn => hmove.settings_eq.trans hn) (fun _ _ _ hn => hn) past

theorem demandsTls_after (past : List (Occurrence τ)) (p : DomainPair) :
    (setup.after past).demandsTls p = setup.demandsTls p := by
  rw [Node.demandsTls, demandsTls, ← skipsTls_start, Node.skipsTls, Node.skipsTls,
    setup.settings_after past, setup.directory_after past]

theorem tlsActive_append (past rest : List (Occurrence τ)) {k : SessionKey}
    (h : ((setup.after past).session k).tlsActive) :
    ((setup.after (past ++ rest)).session k).tlsActive :=
  setup.kept_append (P := fun n => (n.session k).tlsActive)
    (fun hmoves hn => hmoves.tlsActive_of_tlsActive hn) (fun _ _ _ hn => hn) rest h

theorem tlsActive_iff (past : List (Occurrence τ)) (k : SessionKey) :
    ((setup.after past).session k).tlsActive ↔ setup.TlsCompleted past k := by
  constructor
  · intro h
    obtain ⟨before, event, rest, heq, hnot, hafter, -⟩ :=
      setup.exists_event (Q := fun s => s.tlsActive) Bool.false_ne_true h
    obtain ⟨n, m, -, hmove, -, hnot', hnew⟩ := Node.Moves.exists_move
      (P := fun n => (n.session k).tlsActive) (setup.moves_event before event) hnot hafter
    rcases (hmove.change k).tls_cases with ⟨hsame, -⟩ | ⟨conn, trust, hcause, -⟩
    · rw [hsame] at hnew
      exact absurd hnew hnot'
    · have hevent := Node.eq_of_cause_eq_call hcause
      subst hevent
      refine ⟨before, conn, trust, rest, heq, ?_⟩
      -- Of all sessions the step changes only the one of the connection.
      simp only [Node.step, Node.tlsCompleted] at hafter
      cases hfind : (setup.after before).find? conn with
      | none =>
        simp only [hfind] at hafter
        exact absurd hafter hnot
      | some j =>
        simp only [hfind, Node.session_alter] at hafter
        split at hafter
        · rename_i hj
          rw [hj.1]
        · exact absurd hafter hnot
  · rintro ⟨before, conn, trust, rest, rfl, hfind⟩
    have hk := ((setup.wellFormed_after before).live conn k hfind).1
    have hnext : setup.after (before ++ [.event (.tlsCompleted conn trust)]) =
        (setup.after before).alter k (·.recordTls trust) := by
      simp only [after_snoc, next, Node.step, Node.tlsCompleted, hfind]
    have hactive : ((setup.after (before ++
        [.event (.tlsCompleted conn trust)])).session k).tlsActive := by
      rw [hnext, Node.session_alter_self hk]
      rfl
    simpa using setup.tlsActive_append _ rest hactive

theorem tlsActive_of_trusted (past : List (Occurrence τ)) (k : SessionKey)
    (h : ((setup.after past).session k).trust = .trusted) :
    ((setup.after past).session k).tlsActive := by
  refine setup.invariant (P := fun n => (n.session k).trust = .trusted → (n.session k).tlsActive)
    ?_ (fun hmove hn => (hmove.change k).tlsActive_of_trusted hn) (fun _ _ _ hn => hn) past h
  intro hstart
  rw [session_start] at hstart
  cases hstart

end Setup

end Federation
