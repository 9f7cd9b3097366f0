import Federation.Proofs.Node.History

/-!
The log of a node as the trace of its transport. Every entry about a connection stands for a call of
the transport on the state that the calls before it left, and the outcome that it notes is the one
that the transport gave. Between two events the transport may change on its own, and then the log
stays as it is.
-/

namespace Federation

variable {τ : Type} [Transport τ]

/-- What a call makes of a transport, under the name that it has in a log. -/
inductive Transport.Performs : τ → Effect → τ → Prop
  | write (t : τ) (conn : ConnId) (batch : List Element) :
      Performs t (.write conn batch (write t conn batch).1.isOk) (write t conn batch).2
  | connect (t : τ) (pair : DomainPair) :
      Performs t (.connect pair (connect t pair).1.toOption) (connect t pair).2
  | stop (t : τ) (conn : ConnId) (force : Bool) : Performs t (.stop conn force) (stop t conn force)
  | schedule (t : τ) (delay : Duration) : Performs t (.schedule delay) t
  | offered (t : τ) (probe element : String) : Performs t (.offered probe element) t
  | serviced (t : τ) (probe : String) (conn : ConnId) : Performs t (.serviced probe conn) t

inductive Trace : τ → List Effect → τ → Prop
  | nil (t : τ) : Trace t [] t
  | cons {t u v : τ} {effect : Effect} {effects : List Effect} (h : Transport.Performs t effect u)
      (hrest : Trace u effects v) : Trace t (effect :: effects) v

namespace Trace

variable {t u v : τ} {effect : Effect} {effects others : List Effect}

theorem append (h : Trace t effects u) (h' : Trace u others v) : Trace t (effects ++ others) v := by
  induction h with
  | nil => exact h'
  | cons hperforms _ ih => exact .cons hperforms (ih h')

theorem exists_mid (h : Trace t (effects ++ others) v) :
    ∃ u, Trace t effects u ∧ Trace u others v := by
  induction effects generalizing t with
  | nil => exact ⟨t, .nil t, h⟩
  | cons effect effects ih =>
    cases h with
    | cons hperforms hrest =>
      obtain ⟨u, hfirst, hlast⟩ := ih hrest
      exact ⟨u, .cons hperforms hfirst, hlast⟩

/-- A write in a trace is a call on the state that the trace before it leads to. -/
theorem exists_write {conn : ConnId} {batch : List Element} {accepted : Bool}
    (h : Trace t (effects ++ .write conn batch accepted :: others) v) :
    ∃ u, Trace t effects u ∧ accepted = (Transport.write u conn batch).1.isOk ∧
      Trace (Transport.write u conn batch).2 others v := by
  obtain ⟨u, hbefore, hafter⟩ := h.exists_mid
  cases hafter with
  | cons hperforms hrest =>
    cases hperforms
    exact ⟨u, hbefore, rfl, hrest⟩

end Trace

namespace Node

/-- What a later log has more is the trace from the transport of then to the one of now. -/
def Traced (n m : Node τ) : Prop :=
  ∃ added, m.log = n.log ++ added ∧ Trace n.transport added m.transport

namespace Traced

variable {n m l : Node τ}

theorem of_eq (hlog : m.log = n.log) (htransport : m.transport = n.transport) : Traced n m := by
  refine ⟨[], by rw [hlog, List.append_nil], ?_⟩
  rw [htransport]
  exact .nil n.transport

theorem trans (h : Traced n m) (h' : Traced m l) : Traced n l := by
  obtain ⟨added, hlog, htrace⟩ := h
  obtain ⟨more, hlog', htrace'⟩ := h'
  refine ⟨added ++ more, ?_, htrace.append htrace'⟩
  rw [hlog', hlog, List.append_assoc]

theorem single {effect : Effect} (hlog : m.log = n.log ++ [effect])
    (h : Transport.Performs n.transport effect m.transport) : Traced n m :=
  ⟨[effect], hlog, .cons h (.nil m.transport)⟩

theorem write (n : Node τ) (conn : ConnId) (batch : List Element) :
    Traced n (n.write conn batch).2 :=
  .single rfl (.write n.transport conn batch)

theorem flush (n : Node τ) (k : SessionKey) : Traced n (n.flush k).2 := by
  rw [flush_eq]
  split
  · exact .of_eq rfl rfl
  · exact .write (n.alter k Session.clearQueue) _ _

theorem stop (n : Node τ) (k : SessionKey) (force : Bool) : Traced n (n.stop k force) := by
  unfold Node.stop
  split
  · exact .of_eq rfl rfl
  · exact .single rfl (.stop n.transport (n.session k).conn force)

theorem connect (n : Node τ) (pair : DomainPair) : Traced n (n.connect pair).2 :=
  .single (log_connect n pair) (.connect n.transport pair)

end Traced

theorem Move.traced {n m : Node τ} {c : Cause} (h : Move c n m) : Traced n m := by
  cases h with
  | offerKey k p id secret => exact .flush (((n.alter k _).alter k _).alter k _) k
  | flush k => exact .flush n k
  | say k stanza => exact .write n _ _
  | stop k force => exact .stop n k force
  | refuse p relayFor e => exact .connect n p
  | establish p relayFor conn => exact (Traced.connect n p).trans (.of_eq rfl rfl)
  | close conn k =>
    exact .of_eq log_connectionClosed transport_connectionClosed
  | arm conn timeout k => exact .single rfl (.schedule n.transport timeout)
  | grantVerdict k stanza p | grantRelayed k t stanza p | grantCertificate k stanza pair p =>
    exact .of_eq (log_trust _ _ _) (transport_trust _ _ _)
  | _ => exact .of_eq rfl rfl

theorem Moves.traced {n m : Node τ} {c : Cause} (h : Moves c n m) : Traced n m :=
  h.kept (P := Traced n) (fun hmove hn => hn.trans hmove.traced) (.of_eq rfl rfl)

end Node

namespace Setup

variable (setup : Setup τ)

theorem traced_event (past : List (Occurrence τ)) (event : Event) :
    Node.Traced (setup.after past) (setup.after (past ++ [.event event])) := by
  rw [after_snoc]
  exact (setup.moves_event past event).traced

/-- A batch that the log of a history holds was written by a call of the transport during some
event: on the state that the transport of then was in after the calls that stand before it. -/
theorem exists_write {past : List (Occurrence τ)} {earlier later : List Effect} {conn : ConnId}
    {batch : List Element} {accepted : Bool}
    (h : (setup.after past).log = earlier ++ .write conn batch accepted :: later) :
    ∃ before event rest made t, past = before ++ .event event :: rest ∧
      earlier = (setup.after before).log ++ made ∧
      Trace (setup.after before).transport made t ∧
      accepted = (Transport.write t conn batch).1.isOk := by
  -- The write came in at the event at which the log got longer than what stands before the write.
  have hthere : earlier.length < (setup.after past).log.length := by simp [h]
  obtain ⟨before, event, rest, rfl, hnot, hsince⟩ := setup.exists_since
    (P := fun n => earlier.length < n.log.length) (Nat.not_lt_zero _) (fun _ _ _ hn => hn) hthere
  have hlong := hsince [] List.nil_prefix
  have hgrown := setup.log_append (before ++ [.event event]) rest
  rw [List.append_assoc, List.singleton_append, h] at hgrown
  obtain ⟨made, rfl⟩ : (setup.after before).log <+: earlier :=
    List.prefix_of_prefix_length_le ((setup.log_append before [.event event]).trans hgrown)
      (List.prefix_append _ _) (Nat.not_lt.mp hnot)
  obtain ⟨after, hafter⟩ : (setup.after before).log ++ (made ++ [.write conn batch accepted]) <+:
      (setup.after (before ++ [.event event])).log := by
    refine List.prefix_of_prefix_length_le ⟨later, by simp⟩ hgrown ?_
    simp only [List.length_append, List.length_singleton] at hlong ⊢
    omega
  obtain ⟨added, hlog, htrace⟩ := setup.traced_event before event
  rw [hlog, List.append_assoc, List.append_cancel_left_eq] at hafter
  rw [← hafter, List.append_assoc, List.singleton_append] at htrace
  obtain ⟨t, hmade, haccepted, -⟩ := htrace.exists_write
  exact ⟨before, event, rest, made, t, rfl, rfl, hmade, haccepted⟩

end Setup

end Federation
