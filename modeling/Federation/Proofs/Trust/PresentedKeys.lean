import Federation.Proofs.Node.Receipt
import Federation.Proofs.Node.Tls
import Federation.Proofs.Trust.Provenance

/-!
Keys that peers present without TLS. Whether TLS is demanded is judged by the pair that the session
has, which it took from the stream header or from the first dialback stanza as these spell it. The
pair that the key is for is asked about all the same, and need not be that one.
-/

namespace Federation

def Stanza.refusal (pair : DomainPair) (condition : String) : Element :=
  resultReply pair.own pair.peer .error (some (error "cancel" condition))

namespace Node

variable {τ : Type}

section TakeIn

variable (n : Node τ) (k : SessionKey) (spelled p : DomainPair)

/-- The pair that a session adopts is the one by which it is judged at once. -/
theorem pairOr_takeIn : ((n.takeIn k spelled p).session k).pairOr spelled =
    (n.session k).pairOr spelled := by
  rw [session_takeIn]
  split
  · split <;> rfl
  · rfl

theorem demandsTls_takeIn (pair : DomainPair) :
    (n.takeIn k spelled p).demandsTls pair = n.demandsTls pair := by
  rw [demandsTls, demandsTls, skipsTls, skipsTls, settings_takeIn, directory_takeIn]

theorem tlsActive_takeIn (j : SessionKey) :
    ((n.takeIn k spelled p).session j).tlsActive = (n.session j).tlsActive :=
  view_session_takeIn n k spelled p Session.tlsActive (fun _ => rfl) (fun _ => rfl) j

end TakeIn

/-- A question about a key is put on a session: it waits there, or was written on its connection. -/
structure Puts (n m : Node τ) (r : SessionKey) (p : DomainPair) (id key : String) : Prop where
  outstanding : (m.session r).hasVerifyRequest p.peer id
  queued : Stanza.verifyRequest p.own p.peer id key ∈ (m.session r).waiting ∨
    ∃ added batch accepted, m.log = n.log ++ added ∧
      Effect.write (m.session r).conn batch accepted ∈ added ∧
      Stanza.verifyRequest p.own p.peer id key ∈ batch

/-- A key is refused: that is said on the session, and else nothing is written, no connection is
opened, and nothing is queued, asked or trusted. -/
structure Refuses (n m : Node τ) (k : SessionKey) (pair : DomainPair) (condition : String) :
    Prop where
  log : ∃ accepted, m.log =
    n.log ++ [.write (n.session k).conn [Stanza.refusal pair condition] accepted]
  sessions : m.sessions.length = n.sessions.length
  ledger : ∀ j, (m.session j).waiting = (n.session j).waiting ∧
    (m.session j).verifyRequests = (n.session j).verifyRequests ∧
    (m.session j).trusted = (n.session j).trusted

variable [Transport τ] {n : Node τ} {k : SessionKey} {p pair : DomainPair} {id key : String}

theorem log_refuseKey (n : Node τ) (k : SessionKey) (pair : DomainPair) (condition : String) :
    ∃ accepted, (n.refuseKey k pair condition).log =
      n.log ++ [.write (n.session k).conn [Stanza.refusal pair condition] accepted] :=
  ⟨_, rfl⟩

theorem receiveKey_eq (stanza : Element) : n.receiveKey k pair stanza =
    if n.demandsTls ((n.session k).pairOr pair) ∧ (n.session k).tlsActive = false then
      n.refuseKey k pair "policy-violation"
    else if Text.trim (stanza.cdata.getD "") = "" then n.failStream k "bad-request" false
    else
      match (n.alter k (·.setPhase .awaitingVerify)).requestVerification pair
        (n.session k).streamId (Text.trim (stanza.cdata.getD "")) with
      | (.ok _, n) => n
      | (.error _, n) => n.refuseKey k pair "remote-server-not-found" := by
  have hpolicy : (!n.skipsTls ((n.session k).pairOr pair).peer && !(n.session k).tlsActive &&
      n.directory.requiresTls ((n.session k).pairOr pair).own) = true ↔
        n.demandsTls ((n.session k).pairOr pair) ∧ (n.session k).tlsActive = false := by
    simp only [demandsTls, Bool.and_eq_true, Bool.not_eq_true']
    exact and_right_comm
  unfold receiveKey
  exact if_congr hpolicy rfl rfl

theorem receiveKey_of_demandsTls (hdemands : n.demandsTls ((n.session k).pairOr pair))
    (htls : (n.session k).tlsActive = false) (stanza : Element) :
    n.receiveKey k pair stanza = n.refuseKey k pair "policy-violation" := by
  rw [receiveKey_eq, if_pos ⟨hdemands, htls⟩]

section Allowed

variable
  (hallowed : ¬ (n.demandsTls ((n.session k).pairOr pair) ∧ (n.session k).tlsActive = false))
  {stanza : Element}

include hallowed

theorem receiveKey_of_blank (hblank : Text.trim (stanza.cdata.getD "") = "") :
    n.receiveKey k pair stanza = n.failStream k "bad-request" false := by
  rw [receiveKey_eq, if_neg hallowed, if_pos hblank]

/-- A key that is not refused for want of TLS is asked about, unless it is blank. -/
theorem receiveKey_of_allowed (hblank : Text.trim (stanza.cdata.getD "") ≠ "") :
    n.receiveKey k pair stanza =
      match (n.alter k (·.setPhase .awaitingVerify)).requestVerification pair
        (n.session k).streamId (Text.trim (stanza.cdata.getD "")) with
      | (.ok _, n) => n
      | (.error _, n) => n.refuseKey k pair "remote-server-not-found" := by
  rw [receiveKey_eq, if_neg hallowed, if_neg hblank]

end Allowed

theorem receiveKey_of_not_demandsTls (hdemands : ¬ n.demandsTls ((n.session k).pairOr pair))
    {stanza : Element} (hblank : Text.trim (stanza.cdata.getD "") ≠ "") :
    n.receiveKey k pair stanza =
      match (n.alter k (·.setPhase .awaitingVerify)).requestVerification pair
        (n.session k).streamId (Text.trim (stanza.cdata.getD "")) with
      | (.ok _, n) => n
      | (.error _, n) => n.refuseKey k pair "remote-server-not-found" :=
  receiveKey_of_allowed (fun h => hdemands h.1) hblank

/-- A question that waits is put when the queue is written. -/
theorem puts_flush {asked : Node τ} {r : SessionKey} {added : List Effect}
    (hadded : asked.log = n.log ++ added)
    (houtstanding : (asked.session r).hasVerifyRequest p.peer id)
    (hwaiting : Stanza.verifyRequest p.own p.peer id key ∈ (asked.session r).waiting) :
    Puts n (asked.flush r).2 r p id key := by
  obtain ⟨accepted, hlog⟩ := log_flush_of_mem hwaiting
  have hrequest := view_session_flush asked (·.hasVerifyRequest p.peer id) (fun _ => rfl) r r
  have hconn := view_session_flush asked Session.conn (fun _ => rfl) r r
  rw [hadded, List.append_assoc] at hlog
  refine ⟨hrequest.trans houtstanding, Or.inr ⟨_, _, accepted, hlog, ?_, hwaiting⟩⟩
  rw [hconn]
  exact List.mem_append_right _ (List.mem_singleton_self _)

/-- A question about a key is put, unless the transport has no connection for it. -/
theorem requestVerification_cases (hn : n.HasCanonicalEntries) (hbound : n.Bound)
    (hp : DomainPair.checked pair.own pair.peer n.directory.isServed = .ok p)
    (id key : String) :
    (∃ r, Puts n (n.requestVerification pair id key).2 r p id key) ∨
      ∃ added, (n.requestVerification pair id key).2.log = n.log ++ added ∧
        Effect.connect p none ∈ added := by
  have hasks : Asks n p id key (.call (.requestVerification pair id key)) := .caller pair hp
  have hensure : Moves (.call (.requestVerification pair id key)) n (n.withEntry p) :=
    .single (.ensure p hasks.concerns)
  have hn' := hensure.hasCanonicalEntries hn
  have hcanonical : p.IsCanonical (n.withEntry p).directory.isServed :=
    DomainPair.isCanonical_of_checked hp
  have hverifier := hensure.trans (moves_verifier hn' (hasks.of_moves hensure))
  rw [requestVerification, entry_eq hn, hp]
  simp only
  rcases hresult : (n.withEntry p).verifier p with ⟨outcome, m⟩
  rw [hresult] at hverifier
  cases outcome with
  | error e =>
    refine Or.inr ⟨[.connect p none], ?_, List.mem_singleton_self _⟩
    unfold verifier at hresult
    split at hresult
    · cases hresult
    · rcases openConnection_cases hn' hcanonical (some p.peer) with
        ⟨e', hrefused, heq⟩ | ⟨conn, -, heq | heq⟩ <;> rw [heq] at hresult <;> cases hresult
      rw [log_connect, hrefused]
      rfl
  | ok r =>
    left
    have hcarries := carries_of_verifier hn' hcanonical hresult
    obtain ⟨-, opened, hopened, -⟩ := hcarries.peer (Moves.bound hverifier hbound)
    have hr := lt_length_of_pair hopened
    obtain ⟨added, hadded, -⟩ := Moves.exists_added hverifier
    let asked := (m.alter r (·.addVerifyRequest p.peer id)).alter r
      (·.enqueue (Stanza.verifyRequest p.own p.peer id key))
    have hasked : asked.session r = ((m.session r).addVerifyRequest p.peer id).enqueue
        (Stanza.verifyRequest p.own p.peer id key) := by
      simp only [asked]
      rw [session_alter_self (by simpa using hr), session_alter_self hr]
    have houtstanding : (asked.session r).hasVerifyRequest p.peer id := by
      rw [hasked]
      exact (Session.hasVerifyRequest_addVerifyRequest _ _ _ _ _).trans (by simp)
    have hwaiting : Stanza.verifyRequest p.own p.peer id key ∈ (asked.session r).waiting := by
      rw [hasked]
      exact List.mem_append_right _ (List.mem_singleton_self _)
    refine ⟨r, ?_⟩
    simp only
    split
    · -- The peer has announced its stream, so the queue is written at once.
      exact puts_flush hadded houtstanding hwaiting
    · exact ⟨houtstanding, Or.inl hwaiting⟩

omit [Transport τ] in
theorem Puts.of_log_eq {n' m : Node τ} {r : SessionKey} (h : Puts n' m r p id key)
    (hlog : n'.log = n.log) : Puts n m r p id key :=
  ⟨h.outstanding, by rw [← hlog]; exact h.queued⟩

omit [Transport τ] in
/-- A question that was put stays put while more is written. -/
theorem Puts.append {m m' : Node τ} {r : SessionKey} (h : Puts n m r p id key)
    (hsession : m'.session r = m.session r) {more : List Effect} (hlog : m'.log = m.log ++ more) :
    Puts n m' r p id key := by
  obtain ⟨houtstanding, hwaiting | ⟨added, batch, accepted, hadded, hwrite, hmem⟩⟩ := h
  · exact ⟨by rwa [hsession], Or.inl (by rwa [hsession])⟩
  · refine ⟨by rwa [hsession], Or.inr ⟨added ++ more, batch, accepted, ?_, ?_, hmem⟩⟩
    · rw [hlog, hadded, List.append_assoc]
    · rw [hsession]
      exact List.mem_append_left _ hwrite

section Presented

variable (hn : n.WellFormed) (settings : Settings) {conn : ConnId} {stanza : Element}
  (hfind : n.find? conn = some k) (hkind : DialbackKind.of? stanza = some .result)
  (htype : stanza.attr? "type" = none) (hnamed : n.directory.pairNamed? stanza = some p)

include hn hfind hkind htype hnamed

/-- Without TLS a key is refused if the own pair of the session demands it. -/
theorem refuses_of_demandsTls (hdemands : n.demandsTls ((n.session k).pairOr stanza.spelled))
    (htls : (n.session k).tlsActive = false) :
    Refuses n (n.step (Chain.standard settings) (.receive conn stanza)) k stanza.spelled
      "policy-violation" := by
  have htaken : (n.takeIn k stanza.spelled p).demandsTls
      (((n.takeIn k stanza.spelled p).session k).pairOr stanza.spelled) := by
    rw [pairOr_takeIn, demandsTls_takeIn]
    exact hdemands
  rw [step_receive_key hn settings hfind hkind htype hnamed,
    receiveKey_of_demandsTls htaken ((tlsActive_takeIn n k _ p k).trans htls)]
  obtain ⟨accepted, hlog⟩ :=
    log_refuseKey (n.takeIn k stanza.spelled p) k stanza.spelled "policy-violation"
  refine ⟨⟨accepted, ?_⟩, length_sessions_takeIn n k stanza.spelled p, ?_⟩
  · rw [log_takeIn,
      view_session_takeIn n k _ p Session.conn (fun _ => rfl) (fun _ => rfl)] at hlog
    exact hlog
  · intro j
    exact ⟨view_session_takeIn n k _ p Session.waiting (fun _ => rfl) (fun _ => rfl) j,
      view_session_takeIn n k _ p Session.verifyRequests (fun _ => rfl) (fun _ => rfl) j,
      view_session_takeIn n k _ p Session.trusted (fun _ => rfl) (fun _ => rfl) j⟩

/-- A key is asked about if the own pair of the session does not demand TLS, whatever the pair that
the key is for demands. -/
theorem puts_of_not_demandsTls (hbound : n.Bound)
    (hdemands : ¬ n.demandsTls ((n.session k).pairOr stanza.spelled))
    (hblank : Text.trim (stanza.cdata.getD "") ≠ "") :
    (∃ r, Puts n (n.step (Chain.standard settings) (.receive conn stanza)) r p
      (n.session k).streamId (Text.trim (stanza.cdata.getD ""))) ∨
    ∃ added, (n.step (Chain.standard settings) (.receive conn stanza)).log = n.log ++ added ∧
      Effect.connect p none ∈ added := by
  obtain ⟨hk, hconn⟩ := hn.live conn k hfind
  have hlive : n.find? (n.session k).conn = some k := by rw [hconn, hfind]
  let taken := n.takeIn k stanza.spelled p
  let waiting := taken.alter k (·.setPhase .awaitingVerify)
  have htaken : Moves (.heard k stanza) n taken :=
    moves_takeIn hlive (by rw [hkind]; rfl) hnamed stanza.spelled
  have hwaiting : Moves (.heard k stanza) n waiting := htaken.tail (.remark k _ (.phase _ rfl))
  have hlog : waiting.log = n.log := log_takeIn n k stanza.spelled p
  have hstream : (taken.session k).streamId = (n.session k).streamId :=
    Session.streamId_eq (Moves.identity_eq htaken hk)
  have hdemands' : ¬ taken.demandsTls ((taken.session k).pairOr stanza.spelled) := by
    rw [pairOr_takeIn, demandsTls_takeIn]
    exact hdemands
  have hcheck : DomainPair.checked stanza.spelled.own stanza.spelled.peer
      waiting.directory.isServed = .ok p := by
    rw [Moves.directory_eq hwaiting]
    exact (checked_of_pairNamed? hnamed).2.2
  have hcases := requestVerification_cases (Moves.hasCanonicalEntries hwaiting hn.entries)
    (Moves.bound hwaiting hbound) hcheck (n.session k).streamId (Text.trim (stanza.cdata.getD ""))
  rw [hlog] at hcases
  rw [step_receive_key hn settings hfind hkind htype hnamed,
    receiveKey_of_not_demandsTls hdemands' hblank, hstream]
  rcases hresult : waiting.requestVerification stanza.spelled (n.session k).streamId
    (Text.trim (stanza.cdata.getD "")) with ⟨outcome, m⟩
  rw [hresult] at hcases
  have hasked := hcases.imp_left fun ⟨r, hputs⟩ => Exists.intro r (hputs.of_log_eq hlog)
  cases outcome with
  | ok => exact hasked
  | error e =>
    obtain ⟨accepted, hsaid⟩ := log_refuseKey m k stanza.spelled "remote-server-not-found"
    rcases hasked with ⟨r, hputs⟩ | ⟨added, hadded, hconnect⟩
    · exact Or.inl ⟨r, hputs.append rfl hsaid⟩
    · refine Or.inr ⟨_, hsaid.trans (by rw [hadded, List.append_assoc]), ?_⟩
      exact List.mem_append_left _ hconnect

end Presented

end Node

namespace Setup

variable {τ : Type} [Transport τ] (setup : Setup τ)

/-- A question that was put for a key was judged by the pair that the session had then. -/
theorem tls_of_asking {before : List (Occurrence τ)} {event : Event} {k r : SessionKey}
    {presented : Element} {q : DomainPair} {domain id key : String}
    (hcause : (setup.after before).cause event = .heard k presented)
    (hasks : Node.Asks (setup.after before) q id key (.heard k presented))
    (hnot : ¬ ((setup.after before).session r).hasVerifyRequest domain id)
    (hnew : ((setup.after (before ++ [.event event])).session r).hasVerifyRequest domain id) :
    setup.TlsCompleted before k ∨
      ¬ setup.demandsTls (((setup.after before).session k).pairOr presented.spelled) := by
  obtain ⟨conn, rfl, hfind⟩ := Node.exists_of_cause_eq_heard hcause
  by_contra hneither
  rw [not_or, not_not, ← setup.tlsActive_iff, ← setup.demandsTls_after before] at hneither
  obtain ⟨htls, hdemands⟩ := hneither
  cases hasks with
  | presented _ _ hk hkind htype hnamed =>
    have hrefuses := Node.refuses_of_demandsTls (setup.wellFormed_after before) setup.settings hfind
      hkind htype hnamed hdemands (by simpa using htls)
    rw [after_snoc] at hnew
    have hsame := (hrefuses.ledger r).2.1
    unfold Session.hasVerifyRequest at hnot hnew
    rw [← hsame] at hnot
    exact hnot hnew

/-- Without TLS on a connection that a peer opened, a key is refused just if the pair of the session
demands TLS: the pair that it has, or else the one that the stanza spells. If that one does not
demand TLS, the peer is asked about the key although the pair of the key may demand it. So whoever
is trusted there was asked about by a caller, or for a key that was judged by such a pair. -/
theorem presented_keys_follow_own_pair {past : List (Occurrence τ)} {s : SessionKey}
    (hrole : ((setup.after past).session s).role = .inbound)
    (htls : ¬ setup.TlsCompleted past s) :
    (∀ conn stanza p, (setup.after past).find? conn = some s →
      DialbackKind.of? stanza = some .result → stanza.attr? "type" = none →
      setup.directory.pairNamed? stanza = some p →
      let n := setup.after past
      let m := setup.after (past ++ [.event (.receive conn stanza)])
      let key := Text.trim (stanza.cdata.getD "")
      (setup.demandsTls ((n.session s).pairOr stanza.spelled) →
        Node.Refuses n m s stanza.spelled "policy-violation") ∧
      (¬ setup.demandsTls ((n.session s).pairOr stanza.spelled) → key ≠ "" →
        (∃ r, Node.Puts n m r p (n.session s).streamId key) ∨
          ∃ added, m.log = n.log ++ added ∧ Effect.connect p none ∈ added)) ∧
    ∀ p, ((setup.after past).session s).isTrustedFor p →
      ∃ before event rest q key, past = before ++ .event event :: rest ∧ q.peer = p.peer ∧
        Node.Asks (setup.after before) q ((setup.after past).session s).streamId key
          ((setup.after before).cause event) ∧
        ∀ k presented, (setup.after before).cause event = .heard k presented →
          setup.TlsCompleted before k ∨
            ¬ setup.demandsTls (((setup.after before).session k).pairOr presented.spelled) := by
  refine ⟨?_, ?_⟩
  · intro conn stanza p hfind hkind htype hnamed
    have hn := setup.wellFormed_after past
    have hnamed' : (setup.after past).directory.pairNamed? stanza = some p := by
      rwa [setup.directory_after]
    simp only [after_snoc, ← setup.demandsTls_after past]
    refine ⟨fun hdemands => ?_, fun hdemands hblank => ?_⟩
    · rw [← setup.tlsActive_iff] at htls
      exact Node.refuses_of_demandsTls hn setup.settings hfind hkind htype hnamed' hdemands
        (by simpa using htls)
    · exact Node.puts_of_not_demandsTls hn setup.settings hfind hkind htype hnamed'
        (setup.bound_after past) hdemands hblank
  · intro p htrusted
    obtain ⟨history, granting, rest, r, valid, rfl, -, hp, -, -, -, -, -, hrequest, -⟩ :=
      setup.exists_relaying hrole htrusted
    obtain ⟨before, asking, between, q, key, rfl, hasks, hpeer, hunasked, hopen⟩ :=
      setup.exists_asking hrequest
    rw [hp.lower_peer] at hpeer
    refine ⟨before, asking, between ++ .event granting :: rest, q, key, by simp, hpeer, hasks, ?_⟩
    intro k presented hcause
    rw [hcause] at hasks
    exact setup.tls_of_asking hcause hasks hunasked (hopen [] List.nil_prefix)

def strictAndLax : Setup Simulated :=
  { served with
    directory := .exact
      [{ name := "b.example", secret := some "secret", tlsRequired := true },
        { name := "c.example", secret := some "secret" }] }

/-- Without TLS a peer opens a stream to the domain that does not demand it and presents a key to
the one that does, and the relay that is opened for it says that the key is valid. -/
def laxKeyVerified : List (Occurrence Simulated) :=
  [.event (.accept ⟨1⟩ "192.0.2.1"),
    .event (.streamOpened ⟨1⟩ { recipient := some "c.example", sender := some "a.example" }),
    .event (.receive ⟨1⟩ (Stanza.key "a.example" "b.example" "key")),
    .event (.streamOpened ⟨1000⟩ { id := some "x" }),
    .event (.receive ⟨1000⟩
      (Stanza.verifyReply "a.example" "b.example" (identifierText 1) true))]

theorem presented_keys_follow_own_pair_of_laxKeyVerified :
    strictAndLax.demandsTls ⟨"b.example", "a.example"⟩ ∧
      ¬ strictAndLax.TlsCompleted laxKeyVerified 0 ∧
      ((strictAndLax.after laxKeyVerified).session 0).isTrustedFor ⟨"b.example", "a.example"⟩ ∧
      ∃ before event rest q key, laxKeyVerified = before ++ .event event :: rest ∧
        q.peer = "a.example" ∧
        Node.Asks (strictAndLax.after before) q
          ((strictAndLax.after laxKeyVerified).session 0).streamId key
          ((strictAndLax.after before).cause event) ∧
        ∀ k presented, (strictAndLax.after before).cause event = .heard k presented →
          strictAndLax.TlsCompleted before k ∨ ¬ strictAndLax.demandsTls
            (((strictAndLax.after before).session k).pairOr presented.spelled) := by
  have hrun : ((strictAndLax.after laxKeyVerified).session 0).role = .inbound ∧
      ((strictAndLax.after laxKeyVerified).session 0).tlsActive = false ∧
      ((strictAndLax.after laxKeyVerified).session 0).isTrustedFor
        ⟨"b.example", "a.example"⟩ := by
    rw [after_eq_foldl]
    decide +kernel
  obtain ⟨hrole, hactive, htrusted⟩ := hrun
  have htls : ¬ strictAndLax.TlsCompleted laxKeyVerified 0 := fun hcompleted =>
    Bool.false_ne_true (hactive.symm.trans ((strictAndLax.tlsActive_iff _ _).mpr hcompleted))
  exact ⟨by decide +kernel, htls, htrusted,
    (strictAndLax.presented_keys_follow_own_pair hrole htls).2 _ htrusted⟩

end Setup

end Federation
