import Federation.Proofs.Node.Queues
import Federation.Transport.Channel
import Federation.Transport.Simulated

/-!
Connections that are kept up. Whatever a transport does to others, it takes what is written on a
connection that it keeps up, so all that is written there is what the peer gets to hear.
-/

namespace Federation

/-- The connections that a transport keeps up are open and take what is written on them, and stay so
until they are stopped. -/
structure Transport.KeepsUp {τ : Type} [Transport τ] (up : τ → ConnId → Prop) : Prop where
  isOpen : ∀ {t conn}, up t conn → Transport.isOpen t conn
  takes : ∀ {t conn}, up t conn → ∀ batch, (Transport.write t conn batch).1 = .ok ()
  write : ∀ {t conn}, up t conn → ∀ other batch, up (Transport.write t other batch).2 conn
  connect : ∀ {t conn}, up t conn → ∀ {pair other},
    (Transport.connect t pair).1 = .ok other → other ≠ conn → up (Transport.connect t pair).2 conn
  stop : ∀ {t conn}, up t conn → ∀ {other}, other ≠ conn → ∀ force,
    up (Transport.stop t other force) conn

/-- The simulated transport keeps up what is open. -/
theorem Simulated.keepsUp :
    Transport.KeepsUp fun (t : Simulated) conn => t.isOpen conn = true where
  isOpen := fun h => h
  takes := by
    intro t conn h batch
    show (t.write conn batch).1 = _
    rw [write, if_pos h]
  write := by
    intro t conn h other batch
    show (t.write other batch).2.isOpen conn
    rw [write]
    split <;> exact h
  connect := by
    intro t conn h pair other hconn hne
    show (t.connect pair).2.isOpen conn
    replace hconn : (t.connect pair).1 = .ok other := hconn
    unfold connect at hconn ⊢
    cases hmode : t.mode with
    | refuse => exact h
    | succeed => exact h
    | dieAtOnce =>
      simp only [hmode, Except.ok.injEq] at hconn
      subst hconn
      simpa [isOpen, close, hne.symm] using h
  stop := by
    intro t conn h other hne force
    show (t.close other).isOpen conn
    simpa [isOpen, close, hne.symm] using h

/-- While there is a receiver, a channel keeps up what is open. -/
theorem Channel.keepsUp :
    Transport.KeepsUp fun (t : Channel) conn => t.isOpen conn = true ∧ t.isReceiving = true where
  isOpen := fun h => h.1
  takes := by
    rintro t conn ⟨hopen, hreceiving⟩ batch
    show (t.write conn batch).1 = _
    simp [write, hopen, hreceiving]
  write := by
    rintro t conn ⟨hopen, hreceiving⟩ other batch
    show (t.write other batch).2.isOpen conn ∧ (t.write other batch).2.isReceiving
    unfold write
    split
    · refine ⟨(isOpen_emit t _ conn).trans hopen, ?_⟩
      simp [emit, hreceiving]
    · exact ⟨hopen, hreceiving⟩
  connect := by
    rintro t conn ⟨hopen, hreceiving⟩ pair other - -
    show (t.connect pair).2.isOpen conn ∧ (t.connect pair).2.isReceiving
    rw [connect, if_pos hreceiving]
    refine ⟨?_, by simp [emit, allocate, hreceiving]⟩
    rw [isOpen_emit, isOpen_allocate, hopen, Bool.true_or]
  stop := by
    rintro t conn ⟨hopen, hreceiving⟩ other hne force
    show (t.close other force).isOpen conn ∧ (t.close other force).isReceiving
    refine ⟨by simp [isOpen_close, hopen, hne.symm], ?_⟩
    unfold close
    split <;> simp [emit, hreceiving]

namespace Node

section Written

variable {τ : Type} {n m : Node τ}

theorem writtenOn_of_log_eq (hlog : m.log = n.log) (conn : ConnId) :
    m.writtenOn conn = n.writtenOn conn := by
  rw [writtenOn, writtenOn, hlog]

theorem writtenOn_of_log_append {added : List Effect} {conn : ConnId}
    (hlog : m.log = n.log ++ added)
    (hnone : ∀ batch, Effect.write conn batch true ∈ added → batch = []) :
    m.writtenOn conn = n.writtenOn conn := by
  rw [writtenOn, hlog, List.flatMap_append]
  refine (congrArg (n.writtenOn conn ++ ·)
    (List.flatMap_eq_nil_iff.mpr fun effect heffect => ?_)).trans (List.append_nil _)
  split
  · split
    · rename_i hc
      exact hnone _ (hc ▸ heffect)
    · rfl
  · rfl

/-- Where nothing waits, nothing is written when queues are. -/
theorem Flushes.writtenOn_eq {k : SessionKey} {due : Prop} (h : Flushes n m k due)
    (hwaiting : (n.session k).waiting = []) :
    m.writtenOn (n.session k).conn = n.writtenOn (n.session k).conn := by
  obtain ⟨added, hlog, hwrites⟩ := h.log
  refine writtenOn_of_log_append hlog fun batch hwrite => ?_
  refine List.eq_nil_iff_forall_not_mem.mpr fun e he => ?_
  obtain ⟨-, hmem⟩ := (hwrites e).mp ⟨batch, true, hwrite, he⟩
  rw [hwaiting] at hmem
  cases hmem

end Written

variable {τ : Type} [Transport τ] {up : τ → ConnId → Prop} (hkeeps : Transport.KeepsUp up)
  {n : Node τ}

include hkeeps

theorem log_write_of_up {conn : ConnId} (hup : up n.transport conn) (batch : List Element) :
    (n.write conn batch).2.log = n.log ++ [.write conn batch true] := by
  have htakes := hkeeps.takes hup batch
  rcases hwrite : Transport.write n.transport conn batch with ⟨outcome, transport⟩
  rw [hwrite] at htakes
  simp only [write, hwrite, record, htakes]
  rfl

theorem log_flush_of_up {k : SessionKey} (hup : up n.transport (n.session k).conn)
    (hwaiting : (n.session k).waiting ≠ []) :
    (n.flush k).2.log = n.log ++ [.write (n.session k).conn (n.session k).waiting true] := by
  rw [flush_eq, if_neg hwaiting]
  exact log_write_of_up hkeeps (n := n.alter k Session.clearQueue) hup _

theorem up_flush {conn : ConnId} (hup : up n.transport conn) (k : SessionKey) :
    up (n.flush k).2.transport conn := by
  rw [flush_eq]
  split
  · exact hup
  · exact hkeeps.write hup _ _

theorem up_offerKey {conn : ConnId} (hup : up n.transport conn) (k : SessionKey) (p : DomainPair)
    (key : String) : up (n.offerKey k p key).transport conn := by
  unfold offerKey
  refine up_flush hkeeps ?_ k
  exact hup

theorem up_flushPair {conn : ConnId} (hup : up n.transport conn) (p : DomainPair) :
    up (n.flushPair p).transport conn := by
  unfold flushPair
  induction n.linkKeys p generalizing n with
  | nil => exact hup
  | cons k rest ih =>
    refine ih ?_
    unfold flushIfUp
    split
    · exact hup
    · exact up_flush hkeeps hup k

theorem up_stop {conn : ConnId} (hup : up n.transport conn) {k : SessionKey}
    (hne : (n.session k).conn ≠ conn) (force : Bool) : up (n.stop k force).transport conn := by
  unfold Node.stop
  split
  · exact hup
  · exact hkeeps.stop hup hne force

end Node

end Federation
