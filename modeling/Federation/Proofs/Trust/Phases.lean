import Federation.Proofs.Trust.Authority

/-!
The phase of a session, its two flags and the pairs that it is trusted for. They are kept apart and
written by different operations, but they always tell the same: a session that is being torn down is
in the last phase, and else one that is trusted for any pair is in the phase of trust. From these
two phases no operation leads back.
-/

namespace Federation

namespace Session

def status (s : Session) : Bool × Bool × List DomainPair × Phase :=
  (s.isClosing, s.isAuthenticated, s.trusted, s.phase)

structure Agrees (s : Session) : Prop where
  closing : s.isClosing ↔ s.phase = .closed
  authenticated : s.isAuthenticated ↔ ∃ p, s.isTrustedFor p
  phase : s.phase = .authenticated ↔ s.isAuthenticated ∧ s.isClosing = false

/-- What a session keeps on the way to a later state of it. -/
structure Advances (s t : Session) : Prop where
  trusted : ∀ p, s.isTrustedFor p → t.isTrustedFor p
  closed : s.phase = .closed → t.phase = .closed
  authenticated : s.phase = .authenticated → t.phase = .authenticated ∨ t.phase = .closed

theorem agrees_default : (default : Session).Agrees where
  closing := by decide
  authenticated := iff_of_false Bool.false_ne_true fun ⟨_, h⟩ => by cases h
  phase := by decide

theorem Agrees.of_status_eq {s t : Session} (h : s.Agrees) (heq : t.status = s.status) :
    t.Agrees := by
  simp only [status, Prod.mk.injEq] at heq
  obtain ⟨hclosing, hauth, htrusted, hphase⟩ := heq
  refine ⟨?_, ?_, ?_⟩
  · rw [hclosing, hphase]
    exact h.closing
  · simp only [isTrustedFor, hauth, htrusted]
    exact h.authenticated
  · rw [hclosing, hphase, hauth]
    exact h.phase

theorem Agrees.setPhase {s : Session} (h : s.Agrees) {phase : Phase}
    (hphase : phase.isFinal = false) : (s.setPhase phase).Agrees := by
  by_cases hfinal : s.phase.isFinal
  · rwa [setPhase_of_isFinal hfinal]
  obtain ⟨hauth, hclosed⟩ : s.phase ≠ .authenticated ∧ s.phase ≠ .closed := by
    simpa [Phase.isFinal] using hfinal
  obtain ⟨hauth', hclosed'⟩ : phase ≠ .authenticated ∧ phase ≠ .closed := by
    simpa [Phase.isFinal] using hphase
  have hset : s.setPhase phase = { s with phase := phase } := by
    simp only [Session.setPhase, hfinal, if_false, Bool.false_eq_true]
  rw [hset]
  exact ⟨h.closing.trans (iff_of_false hclosed hclosed'), h.authenticated,
    (iff_of_false hauth' hauth).trans h.phase⟩

theorem Agrees.beginClose {s : Session} (h : s.Agrees) : s.beginClose.Agrees where
  closing := iff_of_true rfl rfl
  authenticated := h.authenticated
  phase := iff_of_false Phase.noConfusion fun h => by cases h.2

/-- Only a session that is being torn down does not enter the phase of trust. -/
theorem Agrees.markTrusted {s : Session} (h : s.Agrees) (p : DomainPair) :
    (s.markTrusted p).Agrees := by
  refine ⟨?_, iff_of_true rfl ⟨p, by simp [isTrustedFor_markTrusted]⟩, ?_⟩
  · rw [show (s.markTrusted p).isClosing = s.isClosing from rfl, h.closing]
    by_cases hclosed : s.phase = .closed <;> simp [Session.markTrusted, hclosed]
  · rw [show (s.markTrusted p).isClosing = s.isClosing from rfl, ← Bool.not_eq_true, h.closing]
    by_cases hclosed : s.phase = .closed <;> simp [Session.markTrusted, hclosed]

theorem Advances.refl (s : Session) : s.Advances s :=
  ⟨fun _ h => h, fun h => h, Or.inl⟩

theorem Advances.trans {s t u : Session} (h : s.Advances t) (h' : t.Advances u) : s.Advances u where
  trusted := fun p hp => h'.trusted p (h.trusted p hp)
  closed := fun hs => h'.closed (h.closed hs)
  authenticated := fun hs => (h.authenticated hs).elim h'.authenticated fun ht =>
    Or.inr (h'.closed ht)

end Session

namespace Node

variable {τ : Type} [Transport τ] {n m : Node τ} {c : Cause} {k : SessionKey} {s : Session}

/-- A session gets another status in three ways: its negotiation enters another phase that is not
final, it is torn down, or it becomes trusted for a pair. -/
theorem Change.status_cases (h : Change n m c k s) :
    s.status = (n.session k).status ∨
      (∃ phase, phase.isFinal = false ∧ s.status = ((n.session k).setPhase phase).status) ∨
      s.status = (n.session k).beginClose.status ∨
      ∃ p, s.status = ((n.session k).markTrusted p).status := by
  cases h with
  | remark f hremark =>
    cases hremark with
    | phase phase hphase => exact Or.inr (Or.inl ⟨phase, hphase, rfl⟩)
    | _ => exact Or.inl rfl
  | closing | closed => exact Or.inr (Or.inr (Or.inl rfl))
  | keyOffered p id secret =>
    refine Or.inr (Or.inl ⟨.keySent, rfl, ?_⟩)
    generalize n.session k = t
    rw [Session.setPhase_eq]
    rfl
  | granted base p hgrants hbase =>
    refine Or.inr (Or.inr (Or.inr ⟨p, ?_⟩))
    generalize n.session k = t at hbase
    rcases hbase with rfl | rfl | ⟨id, rfl⟩ <;> rfl
  | accepted conn address hk | opened conn p relayFor hk =>
    rw [session_of_length_le (Nat.le_of_eq hk.symm)]
    exact Or.inl rfl
  | _ =>
    generalize n.session k = t
    exact Or.inl rfl

theorem Change.agrees (h : Change n m c k s) (hold : (n.session k).Agrees) : s.Agrees := by
  rcases h.status_cases with heq | ⟨phase, hphase, heq⟩ | heq | ⟨p, heq⟩
  · exact hold.of_status_eq heq
  · exact (hold.setPhase hphase).of_status_eq heq
  · exact hold.beginClose.of_status_eq heq
  · exact (hold.markTrusted p).of_status_eq heq

theorem Change.advances (h : Change n m c k s) : (n.session k).Advances s := by
  refine ⟨fun p hp => h.isTrustedFor_of_isTrustedFor hp, fun hclosed => ?_, fun hauth => ?_⟩
  · rcases h.status_cases with heq | ⟨phase, hphase, heq⟩ | heq | ⟨p, heq⟩ <;>
      rw [show s.phase = _ from congrArg (·.2.2.2) heq]
    · exact hclosed
    · exact (congrArg _ (Session.setPhase_of_isFinal (by rw [hclosed]; rfl) phase)).trans hclosed
    · rfl
    · exact if_pos hclosed
  · rcases h.status_cases with heq | ⟨phase, hphase, heq⟩ | heq | ⟨p, heq⟩ <;>
      rw [show s.phase = _ from congrArg (·.2.2.2) heq]
    · exact Or.inl hauth
    · exact Or.inl
        ((congrArg _ (Session.setPhase_of_isFinal (by rw [hauth]; rfl) phase)).trans hauth)
    · exact Or.inr rfl
    · exact Or.inl (if_neg (by rw [hauth]; decide))

theorem Moves.advances (h : Moves c n m) (k : SessionKey) :
    (n.session k).Advances (m.session k) := by
  induction h with
  | refl => exact .refl _
  | tail _ hmove ih => exact ih.trans (hmove.change k).advances

end Node

namespace Setup

variable {τ : Type} [Transport τ] (setup : Setup τ)

theorem agrees_after (past : List (Occurrence τ)) (k : SessionKey) :
    ((setup.after past).session k).Agrees :=
  setup.invariant (P := fun n => (n.session k).Agrees)
    (by rw [session_start]; exact Session.agrees_default)
    (fun hmove hn => (hmove.change k).agrees hn) (fun _ _ _ hn => hn) past

theorem advances_append (past rest : List (Occurrence τ)) (k : SessionKey) :
    ((setup.after past).session k).Advances ((setup.after (past ++ rest)).session k) :=
  setup.kept_append (P := fun n => ((setup.after past).session k).Advances (n.session k))
    (fun hmoves hn => hn.trans (hmoves.advances k)) (fun _ _ _ hn => hn) rest (.refl _)

/-- At every point of a history the phase of every session tells the same as its flags and the pairs
that it is trusted for. From there on it loses no pair, it never leaves the last phase, and it
leaves the phase of trust only for the last one. -/
theorem phase_and_flags_agree (past rest : List (Occurrence τ)) (k : SessionKey) :
    ((setup.after past).session k).Agrees ∧
      ((setup.after past).session k).Advances ((setup.after (past ++ rest)).session k) :=
  ⟨setup.agrees_after past k, setup.advances_append past rest k⟩

/-- A verdict that arrives on a session that is being torn down makes it trusted, and does not take
it out of the last phase. -/
example :
    let refused : Event := .receive ⟨1000⟩ ⟨"db:result", [], none, []⟩
    let valid : Event := .receive ⟨1000⟩ (Stanza.resultReply "a.example" "b.example" .valid none)
    let s := (served.after (keySent ⟨"b.example", "a.example"⟩ ++
      [.event refused, .event valid])).session 0
    s.isAuthenticated ∧ s.isClosing ∧ s.phase = .closed := by
  intro refused valid
  rw [after_eq_foldl]
  decide +kernel

end Setup

end Federation
