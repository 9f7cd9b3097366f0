import Federation.Proofs.Node.Questions

/-!
What becomes of queues. A queue is written as a whole and on the connection of its own session, so
what is written there is what waited.
-/

namespace Federation.Node

variable {τ : Type} [Transport τ]

section Flush

/-- The queue of a session is written as a whole if it is due, and else left as it is. -/
structure Flushes (n m : Node τ) (k : SessionKey) (due : Prop) : Prop where
  conn : (m.session k).conn = (n.session k).conn
  log : ∃ added, m.log = n.log ++ added ∧ ∀ e,
    (∃ batch accepted, Effect.write (n.session k).conn batch accepted ∈ added ∧ e ∈ batch) ↔
      due ∧ e ∈ (n.session k).waiting
  flushed : due → (m.session k).waiting = []
  kept : ¬ due → (m.session k).waiting = (n.session k).waiting

variable {n b m : Node τ} {k : SessionKey} {due due' : Prop}

omit [Transport τ] in
theorem Flushes.refl (n : Node τ) (k : SessionKey) : Flushes n n k False where
  conn := rfl
  log := ⟨[], (List.append_nil _).symm, fun e => by simp⟩
  flushed := False.elim
  kept := fun _ => rfl

omit [Transport τ] in
theorem Flushes.trans (h : Flushes n b k due) (h' : Flushes b m k due') :
    Flushes n m k (due ∨ due') where
  conn := h'.conn.trans h.conn
  log := by
    obtain ⟨added, hlog, hwrites⟩ := h.log
    obtain ⟨added', hlog', hwrites'⟩ := h'.log
    rw [h.conn] at hwrites'
    refine ⟨added ++ added', by rw [hlog', hlog, List.append_assoc], fun e => ?_⟩
    have hsplit : (∃ batch accepted, Effect.write (n.session k).conn batch accepted ∈
        added ++ added' ∧ e ∈ batch) ↔
        (due ∧ e ∈ (n.session k).waiting) ∨ due' ∧ e ∈ (b.session k).waiting := by
      simp only [List.mem_append, or_and_right, exists_or, hwrites, hwrites']
    rw [hsplit]
    by_cases hdue : due
    · simp [hdue, h.flushed hdue]
    · simp [hdue, h.kept hdue]
  flushed := by
    rintro (hdue | hdue)
    · by_cases hdue' : due'
      · exact h'.flushed hdue'
      · rw [h'.kept hdue', h.flushed hdue]
    · exact h'.flushed hdue
  kept := fun hnot => (h'.kept fun hdue => hnot (Or.inr hdue)).trans
    (h.kept fun hdue => hnot (Or.inl hdue))

omit [Transport τ] in
theorem Flushes.congr (h : Flushes n m k due) (hdue : due ↔ due') : Flushes n m k due' := by
  rwa [← propext hdue]

def HasOwnConn (n : Node τ) (k : SessionKey) : Prop :=
  k < n.sessions.length ∧
    ∀ j < n.sessions.length, (n.session j).conn = (n.session k).conn → j = k

omit [Transport τ] in
theorem hasOwnConn_of_nodup (hconns : (n.sessions.map (·.conn)).Nodup)
    (hk : k < n.sessions.length) : n.HasOwnConn k :=
  ⟨hk, fun _ hj hconn => eq_of_nodup hconns hj hk hconn⟩

omit [Transport τ] in
theorem HasOwnConn.of_eq (h : n.HasOwnConn k) (hlength : m.sessions.length = n.sessions.length)
    (hconn : ∀ j, (m.session j).conn = (n.session j).conn) : m.HasOwnConn k := by
  refine ⟨by rw [hlength]; exact h.1, fun j hj heq => ?_⟩
  rw [hlength] at hj
  rw [hconn, hconn] at heq
  exact h.2 j hj heq

/-- A queue goes to the connection of its own session. -/
theorem flushes_flushIfUp (hown : n.HasOwnConn k) (j : SessionKey) :
    Flushes n (n.flushIfUp j) k (k = j ∧ (n.session k).isClosing = false) := by
  have hconn := view_session_flushIfUp Session.conn (fun _ => rfl) n j k
  unfold flushIfUp at hconn ⊢
  split
  · rename_i hclosing
    refine (Flushes.refl n k).congr (iff_of_false id ?_)
    rintro ⟨rfl, hopen⟩
    rw [hclosing] at hopen
    cases hopen
  · rename_i hopen
    rw [if_neg hopen] at hconn
    have hdue : (k = j ∧ (n.session k).isClosing = false) ↔ k = j :=
      and_iff_left_of_imp fun hkj => by rw [hkj]; simpa using hopen
    refine Flushes.congr ?_ hdue.symm
    have hsession := session_flush n j k
    by_cases hkj : k = j
    · subst hkj
      rw [if_pos ⟨rfl, hown.1⟩] at hsession
      refine ⟨hconn, ?_, fun _ => by rw [hsession]; rfl, fun hnot => absurd rfl hnot⟩
      by_cases hempty : (n.session k).waiting = []
      · rw [flush_eq, if_pos hempty]
        exact ⟨[], (List.append_nil _).symm, fun e => by simp [hempty]⟩
      · obtain ⟨e₀, he₀⟩ := List.exists_mem_of_ne_nil _ hempty
        obtain ⟨accepted, hlog⟩ := log_flush_of_mem he₀
        exact ⟨_, hlog, fun e => by simp⟩
    · rw [if_neg fun h => hkj h.1] at hsession
      refine ⟨hconn, ?_, fun h => absurd h hkj, fun _ => by rw [hsession]⟩
      rcases log_flush n j with hlog | ⟨accepted, hlog⟩
      · exact ⟨[], hlog.trans (List.append_nil _).symm, fun e => by simp [hkj]⟩
      · refine ⟨_, hlog, fun e => ?_⟩
        rw [iff_false_right fun h => hkj h.1]
        rintro ⟨batch, accepted', hwrite, he⟩
        obtain ⟨hsame, rfl, -⟩ := Effect.write.inj (List.mem_singleton.mp hwrite)
        have hj : j < n.sessions.length := by
          by_contra hge
          rw [session_of_length_le (Nat.not_lt.mp hge)] at he
          cases he
        exact hkj (hown.2 j hj hsame.symm).symm

theorem flushes_flushPair (hown : n.HasOwnConn k) (p : DomainPair) :
    Flushes n (n.flushPair p) k (k ∈ n.linkKeys p ∧ (n.session k).isClosing = false) := by
  have hkeys : ∀ (keys : List SessionKey) (n : Node τ), n.HasOwnConn k →
      Flushes n (keys.foldl flushIfUp n) k (k ∈ keys ∧ (n.session k).isClosing = false) := by
    intro keys
    induction keys with
    | nil =>
      intro n _
      simpa using Flushes.refl n k
    | cons j rest ih =>
      intro n hown
      have hrest := ih (n.flushIfUp j) (hown.of_eq (length_sessions_flushIfUp n j)
        (view_session_flushIfUp Session.conn (fun _ => rfl) n j))
      rw [view_session_flushIfUp Session.isClosing fun _ => rfl] at hrest
      refine ((flushes_flushIfUp hown j).trans hrest).congr ?_
      rw [List.mem_cons, or_and_right]
  exact hkeys (n.linkKeys p) n hown

end Flush

/-- Tearing a connection down writes nothing. -/
theorem log_stop (n : Node τ) (k : SessionKey) (force : Bool) :
    ∃ more, (n.stop k force).log = n.log ++ more ∧ ∀ conn batch accepted,
      Effect.write conn batch accepted ∉ more := by
  unfold Node.stop
  split
  · exact ⟨[], (List.append_nil _).symm, fun _ _ _ => List.not_mem_nil⟩
  · exact ⟨[.stop (n.session k).conn force], rfl, fun _ _ _ h =>
      Effect.noConfusion (List.mem_singleton.mp h)⟩

end Federation.Node
