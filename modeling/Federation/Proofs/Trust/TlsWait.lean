import Federation.Proofs.Trust.Sparing

/-!
The wait for TLS. When the peer of a connection that we opened offers TLS and the pair of the
connection needs it, nothing is presented to the peer until TLS is there. But a connection that
waits is a link of its pair as any other: a question about a key may be put on it, and one that was
put on it before is written when a pair of it becomes trusted elsewhere. Keys are not written.
-/

namespace Federation

namespace Node

variable {τ : Type}

/-- The peer of a connection that we opened offers TLS, and the connection has to wait for it. -/
structure OffersTls (n : Node τ) (k : SessionKey) (stanza : Element) : Prop where
  role : (n.session k).role = .outbound
  pair : ∃ pair, (n.session k).pair = some pair ∧ n.skipsTls pair.peer = false
  inactive : (n.session k).tlsActive = false
  method : ∀ method, (n.session k).method = some method → method = dialbackMethod
  features : Stanza.isStreamFeatures stanza
  offer : stanza.hasChild "starttls" Namespace.startTls

/-- What ends the wait: TLS, or that the peer sends another header or other features. -/
inductive EndsWait (n : Node τ) (k : SessionKey) : Event → Prop
  | tls (conn : ConnId) (trust : CertTrust) (hfind : n.find? conn = some k) :
      EndsWait n k (.tlsCompleted conn trust)
  | header (conn : ConnId) (header : StreamHeader) (hfind : n.find? conn = some k) :
      EndsWait n k (.streamOpened conn header)
  | features (conn : ConnId) (stanza : Element) (hfeatures : Stanza.isStreamFeatures stanza)
      (hfind : n.find? conn = some k) : EndsWait n k (.receive conn stanza)

variable [Transport τ]

/-- The offer itself leads to nothing but the wait. -/
theorem OffersTls.step_eq {n : Node τ} {k : SessionKey} {stanza : Element}
    (h : n.OffersTls k stanza) (settings : Settings) {conn : ConnId}
    (hfind : n.find? conn = some k) :
    n.step (Chain.standard settings) (.receive conn stanza) =
      n.alter k (·.setPhase .tlsDecision) := by
  obtain ⟨hrole, ⟨pair, hpair, hneeded⟩, hinactive, hmethod, hfeatures, hoffer⟩ := h
  have hsettled := method_unsettled hmethod
  rw [step_receive_features settings hfind hfeatures hrole]
  simp [receiveFeatures, hsettled, hpair, hoffer, hneeded, hinactive]

end Node

namespace Setup

variable {τ : Type} [Transport τ] (setup : Setup τ)

/-- How a key or a question gets written on the connection of a session at an event: as the traffic
of a caller, because a pair of the session becomes trusted, or because a question is put on it. -/
inductive LetsOut (past : List (Occurrence τ)) (event : Event) (k : SessionKey) (e : Element) : Prop
  | traffic (pair : DomainPair) (hsend : event = .send pair e)
  | freed (hfrees : setup.FreesLink past event k)
      (hwaiting : e ∈ ((setup.after past).session k).waiting) (hkey : ¬ Stanza.IsKey e)
  | asked (p : DomainPair) (id key : String) (hputs : (setup.after past).PutsOn k p id key event)
      (hknown : ((setup.after past).session k).peerStreamId.isSome)
      (he : e ∈ ((setup.after past).session k).waiting ++
        [Stanza.verifyRequest p.own p.peer id key]) (hkey : ¬ Stanza.IsKey e)

/-- A connection that waits has no TLS yet. -/
theorem tlsActive_of_waits {before : List (Occurrence τ)} {event : Event} {k : SessionKey}
    (hwaits : ¬ (setup.after before).EndsWait k event)
    (h : ((setup.after (before ++ [.event event])).session k).tlsActive) :
    ((setup.after before).session k).tlsActive := by
  rw [tlsActive_iff] at h ⊢
  obtain ⟨past, conn, trust, rest, heq, hfind⟩ := h
  rcases List.eq_nil_or_concat rest with rfl | ⟨mid, o, rfl⟩
  · obtain ⟨rfl, hlast⟩ := List.append_inj' heq rfl
    rw [Occurrence.event.inj (List.singleton_inj.mp hlast)] at hwaits
    exact absurd (.tls conn trust hfind) hwaits
  · rw [List.concat_eq_append, ← List.cons_append, ← List.append_assoc] at heq
    obtain ⟨rfl, -⟩ := List.append_inj' heq rfl
    exact ⟨past, conn, trust, mid, rfl, hfind⟩

section Event

variable (before : List (Occurrence τ)) {event : Event} {k : SessionKey}
  (hconns : ((setup.after (before ++ [.event event])).sessions.map (·.conn)).Nodup)
  (hk : k < (setup.after before).sessions.length)
  (hwaits : ¬ (setup.after before).EndsWait k event)

include hconns hk hwaits

/-- While a connection waits, its queue is written if a question is put on it, and else just if a
pair of it becomes trusted. -/
theorem carried_or_releases (hsend : ∀ pair stanza, event ≠ .send pair stanza) :
    (∀ p id key, (setup.after before).PutsOn k p id key event →
      Node.Carried (setup.after before) (setup.after (before ++ [.event event])) k
        (Stanza.verifyRequest p.own p.peer id key)) ∧
    ((∀ p id key, ¬ (setup.after before).PutsOn k p id key event) →
      Node.Releases (setup.after before) (setup.after (before ++ [.event event])) k
        (setup.FreesLink before event k)) := by
  have hn := setup.wellFormed_after before
  have hbound := setup.bound_after before
  refine ⟨fun p id key hputs => ?_, fun hasks => ?_⟩
  · rw [after_snoc, next_event]
    exact hputs.carried hn hbound setup.settings
  · have hown := Node.hasOwnConn_of_nodup (setup.nodup_conns_of_append hconns) hk
    refine setup.releases_event_of before hconns (setup.identity_append before _ hk).1
      fun hearns => ?_
    rw [after_snoc, next_event]
    refine Node.releases_of_not_putsOn hn hbound setup.settings hown hsend ?_ ?_ hearns hasks
    · rintro conn header rfl hfind
      exact hwaits (.header conn header hfind)
    · rintro conn stanza rfl hfeatures hfind
      exact hwaits (.features conn stanza hfeatures hfind)

/-- What is written there at an event is let out by it. -/
theorem letsOut_of_write {added : List Effect}
    (hlog : (setup.after (before ++ [.event event])).log = (setup.after before).log ++ added)
    {batch : List Element} {accepted : Bool} {e : Element}
    (hwrite : Effect.write ((setup.after before).session k).conn batch accepted ∈ added)
    (he : e ∈ batch) (hcontrol : Stanza.IsControl e) : setup.LetsOut before event k e := by
  by_cases hsend : ∃ pair stanza, event = .send pair stanza
  · obtain ⟨pair, stanza, rfl⟩ := hsend
    obtain ⟨sent, hsent, hbatch⟩ := log_step_send (setup.after before) setup.chain pair stanza
    rw [after_snoc, next_event, hsent, List.append_cancel_left_eq] at hlog
    rw [← hlog] at hwrite
    rw [hbatch _ batch accepted hwrite, List.mem_singleton] at he
    exact .traffic pair (by rw [he])
  have hcases := setup.carried_or_releases before hconns hk hwaits fun pair stanza h =>
    hsend ⟨pair, stanza, h⟩
  by_cases hasks : ∃ p id key, (setup.after before).PutsOn k p id key event
  · obtain ⟨p, id, key, hputs⟩ := hasks
    have hcarried := hcases.1 p id key hputs
    cases hid : ((setup.after before).session k).peerStreamId with
    | none =>
      obtain ⟨-, more, hmore, hother⟩ := hcarried.queued hid
      rw [hlog, List.append_cancel_left_eq] at hmore
      exact absurd hcontrol (hother _ batch accepted (hmore ▸ hwrite) e he)
    | some announced =>
      have hknown : ((setup.after before).session k).peerStreamId.isSome := by rw [hid]; rfl
      obtain ⟨-, accepted', more, hmore, hother⟩ := hcarried.written hknown
      rw [hlog, List.append_cancel_left_eq] at hmore
      rw [hmore] at hwrite
      rcases List.mem_cons.mp hwrite with hbatch | hlater
      · obtain ⟨-, rfl, -⟩ := Effect.write.inj hbatch
        refine .asked p id key hputs hknown he fun hkey => ?_
        rcases List.mem_append.mp he with hwaiting | hquestion
        · exact setup.not_isKey_of_mem_waiting before k e hwaiting hkey
        · rw [List.mem_singleton.mp hquestion] at hkey
          exact Stanza.not_isKey_verifyRequest _ _ _ _ hkey
      · exact absurd hcontrol (hother _ batch accepted hlater e he)
  · have hreleases := hcases.2 fun p id key h => hasks ⟨p, id, key, h⟩
    obtain ⟨more, hmore, hwrites⟩ := hreleases.log
    rw [hlog, List.append_cancel_left_eq] at hmore
    rw [Session.conn_eq (setup.identity_append before _ hk).2, ← hmore] at hwrites
    obtain ⟨hfrees, hwaiting⟩ := (hwrites e hcontrol).mp ⟨batch, accepted, hwrite, he⟩
    exact .freed hfrees hwaiting (setup.not_isKey_of_mem_waiting before k e hwaiting)

end Event

section Run

def WaitsAlong (offered rest : List (Occurrence τ)) (k : SessionKey) : Prop :=
  ∀ mid event more, rest = mid ++ .event event :: more →
    ¬ (setup.after (offered ++ mid)).EndsWait k event

variable {setup} {offered rest : List (Occurrence τ)} {k : SessionKey}

theorem WaitsAlong.of_append {mid more : List (Occurrence τ)}
    (h : setup.WaitsAlong offered (mid ++ more) k) : setup.WaitsAlong offered mid k := by
  rintro before event after rfl
  exact h before event (after ++ more) (by simp)

theorem WaitsAlong.tlsActive_eq_false (h : setup.WaitsAlong offered rest k)
    (hinactive : ((setup.after offered).session k).tlsActive = false) :
    ((setup.after (offered ++ rest)).session k).tlsActive = false := by
  induction rest using List.reverseRecOn with
  | nil => rwa [List.append_nil]
  | append_singleton rest o ih =>
    rw [← List.append_assoc]
    cases o with
    | drift transport pinned =>
      rw [after_snoc]
      exact ih h.of_append
    | event event =>
      rw [← Bool.not_eq_true]
      intro hactive
      have hbefore := setup.tlsActive_of_waits (h rest event [] rfl) hactive
      rw [ih h.of_append] at hbefore
      cases hbefore

/-- What is written on the connection meanwhile is let out by single events. -/
theorem WaitsAlong.exists_letsOut (h : setup.WaitsAlong offered rest k)
    (hconns : ((setup.after (offered ++ rest)).sessions.map (·.conn)).Nodup)
    (hk : k < (setup.after offered).sessions.length) :
    ∃ added, (setup.after (offered ++ rest)).log = (setup.after offered).log ++ added ∧
      ∀ batch accepted e,
        Effect.write ((setup.after offered).session k).conn batch accepted ∈ added → e ∈ batch →
        Stanza.IsControl e → ∃ mid event more, rest = mid ++ .event event :: more ∧
          setup.LetsOut (offered ++ mid) event k e := by
  induction rest using List.reverseRecOn with
  | nil => exact ⟨[], by simp, fun _ _ _ hwrite => by cases hwrite⟩
  | append_singleton rest o ih =>
    rw [← List.append_assoc] at hconns ⊢
    obtain ⟨added, hlog, hearlier⟩ := ih h.of_append (setup.nodup_conns_of_append hconns)
    have hearlier' : ∀ batch accepted e,
        Effect.write ((setup.after offered).session k).conn batch accepted ∈ added → e ∈ batch →
        Stanza.IsControl e → ∃ mid event more, rest ++ [o] = mid ++ .event event :: more ∧
          setup.LetsOut (offered ++ mid) event k e := by
      intro batch accepted e hwrite he hcontrol
      obtain ⟨mid, event, more, rfl, hlets⟩ := hearlier batch accepted e hwrite he hcontrol
      exact ⟨mid, event, more ++ [o], by simp, hlets⟩
    cases o with
    | drift transport pinned =>
      refine ⟨added, ?_, hearlier'⟩
      rw [after_snoc]
      exact hlog
    | event event =>
      obtain ⟨hk', hidentity⟩ := setup.identity_append offered rest hk
      obtain ⟨now, hnow⟩ := setup.log_append (offered ++ rest) [.event event]
      refine ⟨added ++ now, by rw [← hnow, hlog, List.append_assoc], ?_⟩
      intro batch accepted e hwrite he hcontrol
      rcases List.mem_append.mp hwrite with hold | hnew
      · exact hearlier' batch accepted e hold he hcontrol
      · rw [← Session.conn_eq hidentity] at hnew
        exact ⟨rest, event, [], rfl, setup.letsOut_of_write (offered ++ rest) hconns hk'
          (h rest event [] rfl) hnow.symm hnew he hcontrol⟩

end Run

/-- A connection that we opened waits for TLS since its peer has offered it. It has none until the
wait ends, and what is written there meanwhile is what single events let out: no key, but a question
that is put on the connection, and those that waited there with it. -/
theorem questions_written_during_tls_wait {before rest : List (Occurrence τ)} {conn : ConnId}
    {k : SessionKey} {features : Element}
    (hconns : ((setup.after (before ++ .event (.receive conn features) :: rest)).sessions.map
      (·.conn)).Nodup)
    (hfind : (setup.after before).find? conn = some k)
    (hoffers : (setup.after before).OffersTls k features)
    (hwaits : setup.WaitsAlong (before ++ [.event (.receive conn features)]) rest k) :
    let offered := before ++ [.event (.receive conn features)]
    setup.after offered = (setup.after before).alter k (·.setPhase .tlsDecision) ∧
    (∀ mid event more, rest = mid ++ .event event :: more →
      let n := setup.after (offered ++ mid)
      let m := setup.after (offered ++ mid ++ [.event event])
      (n.session k).tlsActive = false ∧
      ((∀ pair stanza, event ≠ .send pair stanza) →
        (∀ p id key, n.PutsOn k p id key event →
          Node.Carried n m k (Stanza.verifyRequest p.own p.peer id key)) ∧
        ((∀ p id key, ¬ n.PutsOn k p id key event) →
          Node.Releases n m k (setup.FreesLink (offered ++ mid) event k)))) ∧
    ∃ added, (setup.after (offered ++ rest)).log = (setup.after offered).log ++ added ∧
      ∀ batch accepted e, Effect.write conn batch accepted ∈ added → e ∈ batch →
        Stanza.IsControl e → ∃ mid event more, rest = mid ++ .event event :: more ∧
          setup.LetsOut (offered ++ mid) event k e := by
  intro offered
  have hsplit : before ++ .event (.receive conn features) :: rest = offered ++ rest := by
    simp [offered]
  rw [hsplit] at hconns
  have hoffered : setup.after offered = (setup.after before).alter k (·.setPhase .tlsDecision) :=
    (setup.after_snoc before _).trans (hoffers.step_eq setup.settings hfind)
  obtain ⟨hk, hconn⟩ := (setup.wellFormed_after before).live conn k hfind
  obtain ⟨hk', hidentity⟩ := setup.identity_append before [.event (.receive conn features)] hk
  have hinactive : ((setup.after offered).session k).tlsActive = false := by
    rw [hoffered]
    exact (Node.view_session_alter Session.tlsActive
      (Session.view_setPhase Session.tlsActive (fun _ _ => rfl) _) _ k k).trans hoffers.inactive
  refine ⟨hoffered, ?_, ?_⟩
  · rintro mid event more rfl
    refine ⟨WaitsAlong.tlsActive_eq_false hwaits.of_append hinactive, ?_⟩
    have hevent : offered ++ (mid ++ .event event :: more) =
        (offered ++ mid ++ [.event event]) ++ more := by simp
    rw [hevent] at hconns
    exact setup.carried_or_releases (offered ++ mid) (setup.nodup_conns_of_append hconns)
      (setup.identity_append offered mid hk').1 (hwaits mid event more rfl)
  · have hlets := WaitsAlong.exists_letsOut hwaits hconns hk'
    rwa [Session.conn_eq hidentity, hconn] at hlets

def startTlsOffer : Element :=
  Stanza.streamFeatures [(⟨"starttls", [], none, []⟩ : Element).setAttr "xmlns" Namespace.startTls]

def announced : List (Occurrence Simulated) :=
  [.event (.openConnection ⟨"b.example", "a.example"⟩ none),
    .event (.streamOpened ⟨1000⟩ { id := some "x", version := some "1.0" })]

/-- While it waits, the peer presents a key on a connection of its own. The question about the key
is written on the one that waits. -/
theorem questions_written_during_tls_wait_of_presented_key :
    let offered := announced ++ [.event (.receive ⟨1000⟩ startTlsOffer)]
    let accepted : List (Occurrence Simulated) := [.event (.accept ⟨1⟩ "192.0.2.1")]
    let presented : Event := .receive ⟨1⟩ (Stanza.key "a.example" "b.example" "key")
    let n := served.after (offered ++ accepted)
    let m := served.after (offered ++ accepted ++ [.event presented])
    (served.after announced).OffersTls 0 startTlsOffer ∧
      served.WaitsAlong offered (accepted ++ [.event presented]) 0 ∧
      (n.session 0).phase = .tlsDecision ∧ (n.session 0).tlsActive = false ∧
      ∃ taken more, m.log = n.log ++ .write ⟨1000⟩
        [Stanza.verifyRequest "b.example" "a.example" (identifierText 2) "key"] taken :: more := by
  intro offered accepted presented n m
  let stanza := Stanza.key "a.example" "b.example" "key"
  have hoffers : (served.after announced).OffersTls 0 startTlsOffer := by
    have hrun : ((served.after announced).session 0).role = .outbound ∧
        ((served.after announced).session 0).pair = some ⟨"b.example", "a.example"⟩ ∧
        (served.after announced).skipsTls "a.example" = false ∧
        ((served.after announced).session 0).tlsActive = false ∧
        ((served.after announced).session 0).method = none := by
      rw [after_eq_foldl]
      decide +kernel
    obtain ⟨hrole, hpair, hneeded, hinactive, hmethod⟩ := hrun
    exact ⟨hrole, ⟨_, hpair, hneeded⟩, hinactive, by simp [hmethod], by decide +kernel,
      by decide +kernel⟩
  have hwaits : served.WaitsAlong offered (accepted ++ [.event presented]) 0 := by
    intro mid event more heq hends
    have hmem : Occurrence.event event ∈ accepted ++ [.event presented] := by simp [heq]
    simp only [accepted, presented, List.cons_append, List.nil_append, List.mem_cons,
      Occurrence.event.injEq, List.not_mem_nil, or_false] at hmem
    rcases hmem with rfl | rfl
    · cases hends
    · cases hends with
      | features conn stanza hfeatures => exact absurd hfeatures (by decide +kernel)
  have hopened : (served.after announced).find? ⟨1000⟩ = some 0 := by
    rw [after_eq_foldl]
    decide +kernel
  have hrun : n.find? ⟨1⟩ = some 1 ∧ 1 < n.sessions.length ∧
      (m.sessions.map (·.conn)).Nodup ∧
      n.usableOutgoing? ⟨"b.example", "a.example"⟩ = some 0 ∧ (n.session 0).phase = .tlsDecision ∧
      (n.session 0).conn = ⟨1000⟩ ∧ (n.session 0).waiting = [] ∧
      (n.session 0).peerStreamId = some "x" ∧ (n.session 1).streamId = identifierText 2 ∧
      ¬ n.demandsTls ((n.session 1).pairOr stanza.spelled) ∧
      n.directory.pairNamed? stanza = some ⟨"b.example", "a.example"⟩ := by
    simp only [n, m, offered, accepted, presented, announced]
    rw [after_eq_foldl, after_eq_foldl]
    decide +kernel
  obtain ⟨hfind, hk, hconns, hcarrier, hphase, hconn, hwaiting, hid, hstream, hlax, hnamed⟩ := hrun
  have hcause : n.cause presented = .heard 1 stanza := by
    simp [Node.cause, presented, stanza, hfind]
  have hputs : n.PutsOn 0 ⟨"b.example", "a.example"⟩ (identifierText 2) "key" presented := by
    refine ⟨?_, ?_, hcarrier⟩
    · rw [hcause]
      exact .presented 1 stanza hk (Stanza.of?_key _ _ _) (Stanza.type_key _ _ _) hnamed hstream
        (by decide +kernel) (by decide)
    · rw [hcause]
      rintro j heard heq ⟨hdemands, -⟩
      obtain ⟨rfl, rfl⟩ := Cause.heard.inj heq
      exact hlax hdemands
  have hconns' : ((served.after (announced ++ .event (.receive ⟨1000⟩ startTlsOffer) ::
      (accepted ++ [.event presented]))).sessions.map (·.conn)).Nodup := hconns
  obtain ⟨-, hevents, -⟩ :=
    served.questions_written_during_tls_wait hconns' hopened hoffers hwaits
  obtain ⟨hinactive, hasked⟩ := hevents accepted presented [] rfl
  obtain ⟨-, taken, more, hlog, -⟩ := ((hasked fun _ _ => Event.noConfusion).1 _ _ _ hputs).written
    (by rw [hid]; rfl)
  rw [hwaiting, hconn] at hlog
  exact ⟨hoffers, hwaits, hphase, hinactive, taken, more, hlog⟩

end Setup

end Federation
