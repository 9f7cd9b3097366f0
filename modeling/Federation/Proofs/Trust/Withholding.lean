import Federation.Proofs.Node.Queues
import Federation.Proofs.Trust.Lifetime
import Federation.Proofs.Trust.Replay

/-!
What waits on a connection that we opened until its peer has announced its stream. It is held back,
but for one case: when a pair becomes trusted on some connection, the queues of all its links are
written, also of those whose peer has announced nothing yet.
-/

namespace Federation

namespace Stanza

def IsControl (e : Element) : Prop :=
  (DialbackKind.of? e).isSome ∧ e.attr? "type" = none

theorem not_isControl_streamError (condition : String) : ¬ IsControl (streamError condition) :=
  fun h => by simp [IsControl, of?_streamError] at h

theorem not_isControl_resultReply (sender recipient : String) (verdict : Verdict)
    (detail : Option Element) : ¬ IsControl (resultReply sender recipient verdict detail) :=
  fun h => by simp [IsControl, type_resultReply] at h

theorem not_isControl_verifyReply (sender recipient id : String) (isValid : Bool) :
    ¬ IsControl (verifyReply sender recipient id isValid) :=
  fun h => by simp [IsControl, type_verifyReply] at h

end Stanza

namespace Node

variable {τ : Type}

/-- Keys and questions are written on the connection of a session just if its queue is due, and then
all that waited; else they wait on while the connection is there. -/
structure Releases (n m : Node τ) (k : SessionKey) (due : Prop) : Prop where
  log : ∃ added, m.log = n.log ++ added ∧ ∀ e, Stanza.IsControl e →
    ((∃ batch accepted, Effect.write (m.session k).conn batch accepted ∈ added ∧ e ∈ batch) ↔
      due ∧ e ∈ (n.session k).waiting)
  released : due → (m.session k).waiting = []
  held : ¬ due → m.IsLive k → (n.session k).waiting <+: (m.session k).waiting

theorem Releases.congr {n m : Node τ} {k : SessionKey} {due due' : Prop} (h : Releases n m k due)
    (hdue : due ↔ due') : Releases n m k due' := by
  rwa [← propext hdue]

variable [Transport τ]

section Quiet

variable {n m : Node τ} {c : Cause} {k : SessionKey}

/-- A peer that has announced nothing had announced nothing before. -/
theorem Moves.peerStreamId_eq_none (h : Moves c n m) (hid : (m.session k).peerStreamId = none) :
    (n.session k).peerStreamId = none := by
  induction h with
  | refl => exact hid
  | tail _ hmove ih =>
    refine ih ?_
    rcases (hmove.change k).notes_cases with hsame | ⟨conn, trust, -, hs⟩ | ⟨_, id, -, -, hs⟩
    · exact (congrArg (·.2.2) hsame).symm.trans hid
    · rw [hs] at hid
      exact hid
    · rw [hs] at hid
      cases hid

/-- What waits is not written before the peer has announced its stream, unless a
pair becomes trusted. -/
theorem Move.waiting_prefix (h : Move c n m) (hn : n.WellFormed) (hquiet : ¬ c.MayGrant)
    (hlive : m.find? (m.session k).conn = some k) (hid : (m.session k).peerStreamId = none) :
    (n.session k).waiting <+: (m.session k).waiting := by
  have hchange := h.change k
  have hbefore := Moves.peerStreamId_eq_none (.single h) hid
  generalize hs : m.session k = s at hchange hlive hid
  cases hchange with
  | remark f hremark => rw [(hremark.ledger_eq _).2.2.2]
  | written hmay =>
    rcases hmay with hknown | ⟨hgrant, -⟩
    · rw [hbefore] at hknown
      cases hknown
    · exact absurd hgrant hquiet
  | closed conn hfind hgone =>
    have hconn : (n.session k).beginClose.clearQueue.conn = conn := (hn.live conn k hfind).2
    rw [hconn, hgone] at hlive
    cases hlive
  | keyOffered p id secret hmay hrole hpair hrelay hknown =>
    rw [hbefore] at hknown
    cases hknown
  | requestQueued p id key => exact List.prefix_append _ _
  | granted base p hgrants hbase => rw [(Session.granted_of_eq hbase).waiting]
  | accepted conn address hk | opened conn p relayFor hk =>
    rw [hk, session_of_length_le (Nat.le_refl _)]
    exact List.nil_prefix
  | _ => exact List.prefix_refl _

theorem Moves.waiting_prefix (h : Moves c n m) (hn : n.WellFormed) (hquiet : ¬ c.MayGrant)
    (hlive : m.find? (m.session k).conn = some k) (hid : (m.session k).peerStreamId = none) :
    (n.session k).waiting <+: (m.session k).waiting := by
  induction h with
  | refl => exact List.prefix_refl _
  | tail hmoves hmove ih =>
    rename_i b d
    have hlast := hmove.waiting_prefix (Moves.wellFormed hmoves hn) hquiet hlive hid
    rcases hmove.find?_eq_some hlive with hfound | ⟨hk, -⟩
    · obtain ⟨hlt, hconn⟩ := (Moves.wellFormed hmoves hn).live _ k hfound
      refine (ih ?_ (Moves.peerStreamId_eq_none (.single hmove) hid)).trans hlast
      rw [hconn]
      exact hfound
    · rw [hk, session_of_length_le (Moves.length_le hmoves)]
      exact List.nil_prefix

/-- Keys and questions of its own a node writes only on sessions that are there. -/
theorem Says.lt_length {e : Element} (h : Says n k c e) (hcontrol : Stanza.IsControl e)
    (hsend : ∀ pair stanza, c ≠ .call (.send pair stanza)) : k < n.sessions.length := by
  cases h with
  | waiting _ hwaiting =>
    by_contra hge
    rw [session_of_length_le (Nat.not_lt.mp hge)] at hwaiting
    cases hwaiting
  | key p id secret hmay hrole hpair => exact lt_length_of_pair hpair
  | utterance _ hutterance =>
    obtain ⟨pair, hcall, -⟩ := hutterance.exists_send hcontrol.1 hcontrol.2
    exact absurd hcall (hsend pair e)

/-- So it is on every event on which no pair becomes trusted. -/
theorem Moves.releases (h : Moves c n m) (hn : n.WellFormed) (hquiet : ¬ c.MayGrant)
    (hsend : ∀ pair stanza, c ≠ .call (.send pair stanza))
    (hconns : (m.sessions.map (·.conn)).Nodup) (hk : k < m.sessions.length)
    (hid : (m.session k).peerStreamId = none) : Releases n m k False := by
  obtain ⟨added, hlog, hwrites⟩ := h.exists_added
  refine ⟨⟨added, hlog, fun e hcontrol => ?_⟩, False.elim, fun _ hlive =>
    h.waiting_prefix hn hquiet hlive hid⟩
  rw [false_and, iff_false]
  rintro ⟨batch, accepted, hwrite, he⟩
  obtain ⟨n', j, hbefore, hafter, hconn, hspoken⟩ := hwrites _ batch accepted hwrite
  have hj := (hspoken e he).lt_length hcontrol hsend
  -- The connection is the one of no other session, and nothing was announced on it.
  have hunknown : (n'.session j).peerStreamId = none := by
    have hsame := eq_of_nodup hconns (Nat.lt_of_lt_of_le hj (Moves.length_le hafter)) hk
      ((Session.conn_eq (Moves.identity_eq hafter hj)).trans hconn)
    rw [hsame]
    exact Moves.peerStreamId_eq_none hafter hid
  cases hspoken e he with
  | waiting _ hwaiting hmay =>
    rcases hmay with hknown | ⟨hgrant, -⟩
    · rw [hunknown] at hknown
      cases hknown
    · exact hquiet hgrant
  | key p id secret hmay hrole hpair hknown =>
    rw [hunknown] at hknown
    cases hknown
  | utterance _ hutterance =>
    obtain ⟨pair, hcall, -⟩ := hutterance.exists_send hcontrol.1 hcontrol.2
    exact hsend pair e hcall

end Quiet

omit [Transport τ] in
/-- What is earned at an event is earned for one pair. -/
theorem Earns.pair_unique {n : Node τ} {w : Bool} {c : Cause} {p p' : DomainPair}
    {j j' : SessionKey} (h : Earns w n p j c) (h' : Earns w n p' j' c) : p = p' := by
  cases h with
  | verdict _ stanza hkind htype hnamed =>
    cases h' with
    | verdict _ _ hkind' htype' hnamed' => exact Option.some.inj (hnamed.symm.trans hnamed')
    | certificate _ _ hfeatures' =>
      rw [of?_of_isStreamFeatures hfeatures'] at hkind
      cases hkind
    | relayed _ _ _ _ hkind' =>
      rw [hkind] at hkind'
      cases hkind'
  | certificate _ stanza hfeatures hrole hcertified =>
    have hnone := of?_of_isStreamFeatures hfeatures
    cases h' with
    | verdict _ _ hkind' =>
      rw [hnone] at hkind'
      cases hkind'
    | certificate _ _ _ _ hcertified' =>
      obtain ⟨pair, hpair, hcheck⟩ := hcertified.pair
      obtain ⟨pair', hpair', hcheck'⟩ := hcertified'.pair
      obtain rfl : pair = pair' := Option.some.inj (hpair.symm.trans hpair')
      exact Except.ok.inj (hcheck.symm.trans hcheck')
    | relayed _ _ _ _ hkind' =>
      rw [hnone] at hkind'
      cases hkind'
  | relayed r _ stanza id hkind htype hid hnamed =>
    cases h' with
    | verdict _ _ hkind' =>
      rw [hkind] at hkind'
      cases hkind'
    | certificate _ _ hfeatures' =>
      rw [of?_of_isStreamFeatures hfeatures'] at hkind
      cases hkind
    | relayed _ _ _ _ _ _ _ hnamed' => exact Option.some.inj (hnamed.symm.trans hnamed')

section Silent

variable {n b m : Node τ} {k : SessionKey} {due : Prop}

omit [Transport τ] in
theorem Flushes.releases (h : Flushes n m k due) : Releases n m k due where
  log := by
    obtain ⟨added, hlog, hwrites⟩ := h.log
    rw [h.conn]
    exact ⟨added, hlog, fun e _ => hwrites e⟩
  released := h.flushed
  held := fun hnot _ => by rw [h.kept hnot]

omit [Transport τ] in
theorem Releases.of_eq (h : Releases b m k due)
    (hwaiting : (b.session k).waiting = (n.session k).waiting) (hlog : b.log = n.log) :
    Releases n m k due := by
  obtain ⟨hwrites, hreleased, hheld⟩ := h
  rw [hwaiting, hlog] at hwrites
  rw [hwaiting] at hheld
  exact ⟨hwrites, hreleased, hheld⟩

omit [Transport τ] in
/-- What else is written is neither a key nor a question. -/
theorem Releases.append (h : Releases n b k due)
    (hwaiting : (m.session k).waiting = (b.session k).waiting)
    (hconn : (m.session k).conn = (b.session k).conn) (hlive : m.live = b.live)
    (hlog : ∃ more, m.log = b.log ++ more ∧ ∀ conn batch accepted,
      Effect.write conn batch accepted ∈ more → ∀ e ∈ batch, ¬ Stanza.IsControl e) :
    Releases n m k due := by
  obtain ⟨⟨added, hadded, hwrites⟩, hreleased, hheld⟩ := h
  obtain ⟨more, hmore, hother⟩ := hlog
  have hstill : m.IsLive k ↔ b.IsLive k := by rw [IsLive, IsLive, find?, find?, hlive, hconn]
  rw [← hwaiting] at hreleased hheld
  refine ⟨⟨added ++ more, by rw [hmore, hadded, List.append_assoc], fun e hcontrol => ?_⟩,
    hreleased, fun hnot hlive => hheld hnot (hstill.mp hlive)⟩
  rw [← hwrites e hcontrol, hconn]
  constructor
  · rintro ⟨batch, accepted, hwrite, he⟩
    rcases List.mem_append.mp hwrite with hold | hnew
    · exact ⟨batch, accepted, hold, he⟩
    · exact absurd hcontrol (hother _ batch accepted hnew e he)
  · rintro ⟨batch, accepted, hwrite, he⟩
    exact ⟨batch, accepted, List.mem_append_left _ hwrite, he⟩

theorem Releases.stop (h : Releases n m k due) (j : SessionKey) (force : Bool) :
    Releases n (m.stop j force) k due := by
  obtain ⟨more, hlog, hnone⟩ := log_stop m j force
  exact h.append (view_session_stop m Session.waiting (fun _ => rfl) j k force)
    (view_session_stop m Session.conn (fun _ => rfl) j k force) (live_stop m j force)
    ⟨more, hlog, fun conn batch accepted hwrite => absurd hwrite (hnone conn batch accepted)⟩

theorem Releases.sendNow (h : Releases n m k due) (j : SessionKey) {stanza : Element}
    (hother : ¬ Stanza.IsControl stanza) : Releases n (m.sendNow j stanza).2 k due := by
  obtain ⟨accepted, hlog⟩ := log_write m (m.session j).conn [stanza]
  refine h.append rfl rfl rfl ⟨_, hlog, fun conn batch accepted' hwrite e he => ?_⟩
  obtain ⟨-, rfl, -⟩ := Effect.write.inj (List.mem_singleton.mp hwrite)
  rwa [List.mem_singleton.mp he]

omit [Transport τ] in
theorem releases_of_no_write (hwaiting : (m.session k).waiting = (n.session k).waiting)
    {more : List Effect} (hlog : m.log = n.log ++ more)
    (hnone : ∀ conn batch accepted, Effect.write conn batch accepted ∉ more) :
    Releases n m k False where
  log := by
    refine ⟨more, hlog, fun e _ => ?_⟩
    rw [false_and, iff_false]
    rintro ⟨batch, accepted, hwrite, -⟩
    exact hnone _ batch accepted hwrite
  released := False.elim
  held := fun _ _ => by rw [hwaiting]

omit [Transport τ] in
theorem releases_of_eq (hwaiting : (m.session k).waiting = (n.session k).waiting)
    (hlog : m.log = n.log) : Releases n m k False :=
  releases_of_no_write hwaiting (by rw [hlog, List.append_nil]) fun _ _ _ => List.not_mem_nil

omit [Transport τ] in
theorem Ignores.releases {r : SessionKey} (h : Ignores n m r) : Releases n m k False := by
  have hwaiting := congrArg (·.2.2.2.2) (h.ledgers k)
  rcases h.log with hlog | ⟨-, hlog⟩
  · exact releases_of_eq hwaiting hlog
  · exact releases_of_no_write hwaiting hlog fun _ _ _ hwrite =>
      Effect.noConfusion (List.mem_singleton.mp hwrite)

end Silent

section Authenticate

variable {n b : Node τ} {k : SessionKey}

/-- When a pair becomes trusted, the queues of its links are written. -/
theorem releases_authenticate (p : DomainPair) (j : SessionKey)
    (hown : (b.authenticate p j).HasOwnConn k)
    (hwaiting : (b.session k).waiting = (n.session k).waiting)
    (hclosing : (b.session k).isClosing = (n.session k).isClosing) (hlog : b.log = n.log) :
    Releases n (b.authenticate p j) k
      (k ∈ (b.authenticate p j).linkKeys p ∧ (n.session k).isClosing = false) := by
  have hlinks : (b.authenticate p j).linkKeys p = (b.trust p j).linkKeys p := by
    rw [linkKeys, authenticate, registry_flushPair, linkKeys]
  have hflushes := flushes_flushPair (n := b.trust p j) (k := k)
    (hown.of_eq (length_sessions_flushPair _ p).symm fun i =>
      (view_session_flushPair Session.conn (fun _ => rfl) _ p i).symm) p
  rw [view_session_trust b p j Session.isClosing (fun _ => rfl) fun _ => rfl, hclosing,
    ← hlinks] at hflushes
  exact hflushes.releases.of_eq
    ((view_session_trust b p j Session.waiting (fun _ => rfl) (fun _ => rfl) k).trans hwaiting)
    ((log_trust b p j).trans hlog)

end Authenticate

section Step

variable {n : Node τ} (hn : n.WellFormed) (hbound : n.Bound)
  (hactive : ∀ k, (n.session k).trust = .trusted → (n.session k).tlsActive) (settings : Settings)
  {event : Event} {k : SessionKey}

include hn hbound hactive

theorem Earns.releases {p : DomainPair} {j : SessionKey}
    (h : Earns settings.workaround n p j (n.cause event))
    (hown : (n.step (Chain.standard settings) event).HasOwnConn k) :
    Releases n (n.step (Chain.standard settings) event) k
      (k ∈ (n.step (Chain.standard settings) event).linkKeys p ∧
        (n.session k).isClosing = false) := by
  generalize hcause : n.cause event = c at h
  cases h with
  | verdict _ stanza hkind htype hnamed hrequest =>
    obtain ⟨conn, rfl, hfind⟩ := exists_of_cause_eq_heard hcause
    rw [step_receive_valid hn settings hfind hkind htype hnamed hrequest] at hown ⊢
    exact releases_authenticate p j hown
      (view_session_takeIn_alter n j _ p Session.waiting (fun _ => rfl) (fun _ => rfl)
        (f := (·.dropKeyRequest p.peer)) (fun _ => rfl) k)
      (view_session_takeIn_alter n j _ p Session.isClosing (fun _ => rfl) (fun _ => rfl)
        (f := (·.dropKeyRequest p.peer)) (fun _ => rfl) k)
      (log_takeIn n j stanza.spelled p)
  | certificate _ stanza hfeatures hrole hcertified =>
    obtain ⟨conn, rfl, hfind⟩ := exists_of_cause_eq_heard hcause
    have hview : ∀ {α : Type} (view : Session → α),
        (∀ s, view (s.setMethod certificateMethod) = view s) →
        view (((n.withEntry p).alter j (·.setMethod certificateMethod)).session k) =
          view (n.session k) := fun view hf => view_session_alter view hf (n.withEntry p) j k
    rw [step_receive_features settings hfind hfeatures hrole,
      receiveFeatures_of_certified hn.entries (hactive j) hcertified] at hown ⊢
    exact releases_authenticate p j hown (hview Session.waiting fun _ => rfl)
      (hview Session.isClosing fun _ => rfl) rfl
  | relayed r _ stanza id hkind htype hid hnamed hrequest htarget =>
    obtain ⟨conn, rfl, hfind⟩ := exists_of_cause_eq_heard hcause
    have hrole := (hbound.peer_of_hasVerifyRequest (Directory.isCanonical_of_pairNamed? hnamed)
      hrequest).1
    let taken := n.takeIn r stanza.spelled p
    let settled := taken.alter r (·.dropVerifyRequest p.peer id)
    let answered := (settled.authenticate p j).reply j (Stanza.resultReply p.own p.peer .valid none)
    have hrequest' : (taken.session r).hasVerifyRequest p.peer id :=
      (hasVerifyRequest_takeIn n r _ p p.peer id r).trans hrequest
    have htarget' : taken.incomingByStream? p id = some j :=
      (incomingByStream?_takeIn hrole _ p id).trans htarget
    have hanswered : answered.HasOwnConn k → Releases n answered k
        (k ∈ answered.linkKeys p ∧ (n.session k).isClosing = false) := fun hown =>
      (releases_authenticate p j hown
        (view_session_takeIn_alter n r _ p Session.waiting (fun _ => rfl) (fun _ => rfl)
          (f := (·.dropVerifyRequest p.peer id)) (fun _ => rfl) k)
        (view_session_takeIn_alter n r _ p Session.isClosing (fun _ => rfl) (fun _ => rfl)
          (f := (·.dropVerifyRequest p.peer id)) (fun _ => rfl) k)
        (log_takeIn n r stanza.spelled p)).sendNow j (Stanza.not_isControl_resultReply _ _ _ _)
    rw [step_receive_answer hn settings hfind hkind htype hnamed, receiveVerifyReply,
      relayVerdict_of_target hid hrequest' htarget'] at hown ⊢
    change (if (answered.session r).isRelay then answered.stop r false else answered).HasOwnConn k
      at hown
    change Releases n (if (answered.session r).isRelay then answered.stop r false else answered) k
      (k ∈ (if (answered.session r).isRelay then answered.stop r false else answered).linkKeys p ∧
        _)
    split at hown <;> rename_i hrelay
    · rw [if_pos hrelay, linkKeys, registry_stop]
      exact (hanswered (hown.of_eq (length_sessions_stop answered r false).symm fun i =>
        (view_session_stop answered Session.conn (fun _ => rfl) r i false).symm)).stop r false
    · rw [if_neg hrelay]
      exact hanswered hown

omit hactive in
/-- An answer that makes no session trusted releases nothing. -/
theorem releases_of_unearned_answer {conn : ConnId} {r : SessionKey} (hfind : n.find? conn = some r)
    {stanza : Element} {kind : DialbackKind} (hkind : DialbackKind.of? stanza = some kind)
    (htype : stanza.attr? "type" = some "valid")
    (hnot : ∀ p j, ¬ Earns settings.workaround n p j (.heard r stanza)) :
    Releases n (n.step (Chain.standard settings) (.receive conn stanza)) k False := by
  cases hnamed : n.directory.pairNamed? stanza with
  | none =>
    obtain ⟨condition, heq | heq⟩ := step_receive_unnamed hn.entries settings hfind hkind hnamed <;>
      rw [heq]
    · exact ((releases_of_eq (m := n) rfl rfl).sendNow r
        (Stanza.not_isControl_streamError condition)).stop r false
    · have hadopted := view_session_alter Session.waiting (f := (·.adoptPair stanza.spelled))
        (fun _ => rfl) n r k
      exact ((releases_of_eq (m := n.alter r (·.adoptPair stanza.spelled)) hadopted rfl).sendNow r
        (Stanza.not_isControl_streamError condition)).stop r false
  | some p =>
    cases kind with
    | result =>
      exact (ignores_of_no_key_request hn settings hfind hnamed hkind htype fun hrequest =>
        hnot p r (.verdict r stanza hkind htype hnamed hrequest)).releases
    | verify =>
      by_cases hdue : ∃ id, stanza.attr? "id" = some id ∧
          (n.session r).hasVerifyRequest p.peer id
      · obtain ⟨id, hid, hrequest⟩ := hdue
        have hrole := (hbound.peer_of_hasVerifyRequest (Directory.isCanonical_of_pairNamed? hnamed)
          hrequest).1
        let taken := n.takeIn r stanza.spelled p
        let settled := taken.alter r (·.dropVerifyRequest p.peer id)
        have hrequest' : (taken.session r).hasVerifyRequest p.peer id :=
          (hasVerifyRequest_takeIn n r _ p p.peer id r).trans hrequest
        have htarget : (taken.alter r (·.dropVerifyRequest p.peer id)).incomingByStream? p id =
            none := by
          rw [incomingByStream?_alter taken r (f := (·.dropVerifyRequest p.peer id))
            (fun _ => rfl), incomingByStream?_takeIn hrole]
          exact Option.eq_none_iff_forall_ne_some.mpr fun j hj =>
            hnot p j (.relayed r j stanza id hkind htype hid hnamed hrequest hj)
        have hrelayed : taken.relayVerdict r p stanza .valid = settled := by
          simp only [relayVerdict, hid, hrequest', Bool.not_true, Bool.false_eq_true, if_false,
            decide_true, if_true, authenticateByStream, htarget]
          rfl
        have hsettled : Releases n settled k False :=
          releases_of_eq (view_session_takeIn_alter n r _ p Session.waiting (fun _ => rfl)
            (fun _ => rfl) (f := (·.dropVerifyRequest p.peer id)) (fun _ => rfl) k)
            (log_takeIn n r stanza.spelled p)
        rw [step_receive_answer hn settings hfind hkind htype hnamed, receiveVerifyReply, hrelayed]
        split
        · exact hsettled.stop r false
        · exact hsettled
      · exact (ignores_of_no_verify_request hn settings hfind hnamed hkind htype
          fun id hid hrequest => hdue ⟨id, hid, hrequest⟩).releases

omit hactive in
theorem releases_of_not_earns
    (hnot : ∀ p j, ¬ Earns settings.workaround n p j (n.cause event))
    (hsend : ∀ pair stanza, event ≠ .send pair stanza)
    (hconns : ((n.step (Chain.standard settings) event).sessions.map (·.conn)).Nodup)
    (hk : k < (n.step (Chain.standard settings) event).sessions.length)
    (hid : ((n.step (Chain.standard settings) event).session k).peerStreamId = none) :
    Releases n (n.step (Chain.standard settings) event) k False := by
  by_cases hgrant : (n.cause event).MayGrant
  · generalize hcause : n.cause event = c at hgrant hnot
    cases hgrant with
    | dialback r stanza hkind htype =>
      obtain ⟨conn, rfl, hfind⟩ := exists_of_cause_eq_heard hcause
      obtain ⟨kind, hkind⟩ := Option.isSome_iff_exists.mp hkind
      obtain ⟨text, htext, hvalid⟩ := Option.map_eq_some_iff.mp htype
      rw [Verdict.parse_eq_valid hvalid] at htext
      exact releases_of_unearned_answer hn hbound settings hfind hkind htext hnot
    | features r stanza hfeatures =>
      obtain ⟨conn, rfl, hfind⟩ := exists_of_cause_eq_heard hcause
      by_cases hrole : (n.session r).role = .outbound
      · have hnone : ∀ p, ¬ n.Certified settings.workaround r stanza p := fun p hcertified =>
          hnot p r (.certificate r stanza hfeatures hrole hcertified)
        have hmoves := moves_of_not_certified hn.entries hrole hnone
        rw [step_receive_features settings hfind hfeatures hrole] at hconns hk hid ⊢
        exact hmoves.releases hn nofun (fun _ _ => Cause.noConfusion) hconns hk hid
      · rw [step_receive_other settings hfind (of?_of_isStreamFeatures hfeatures),
          isStreamError_of_isStreamFeatures hfeatures]
        simp only [Bool.false_eq_true, if_false, hrole, false_and]
        exact releases_of_eq rfl rfl
  · refine (step_moves hn settings event).releases hn hgrant (fun pair stanza hcall => ?_) hconns hk
      hid
    exact hsend pair stanza (eq_of_cause_eq_call hcall)

end Step

end Node

namespace Setup

variable {τ : Type} [Transport τ] (setup : Setup τ)

/-- A pair becomes trusted on some session at an event, and the session is a link of it that is not
being torn down. -/
def FreesLink (before : List (Occurrence τ)) (event : Event) (k : SessionKey) : Prop :=
  ∃ p j, Node.Earns setup.settings.workaround (setup.after before) p j
      ((setup.after before).cause event) ∧
    k ∈ (setup.after (before ++ [.event event])).linkKeys p ∧
    ((setup.after before).session k).isClosing = false

/-- At an event that earns trust, a queue is written just if the pair is one of its connection. -/
theorem releases_event_of (before : List (Occurrence τ)) {event : Event} {k : SessionKey}
    (hconns : ((setup.after (before ++ [.event event])).sessions.map (·.conn)).Nodup)
    (hk : k < (setup.after (before ++ [.event event])).sessions.length)
    (hquiet : (∀ p j, ¬ Node.Earns setup.settings.workaround (setup.after before) p j
        ((setup.after before).cause event)) →
      Node.Releases (setup.after before) (setup.after (before ++ [.event event])) k False) :
    Node.Releases (setup.after before) (setup.after (before ++ [.event event])) k
      (setup.FreesLink before event k) := by
  by_cases hearned : ∃ p j, Node.Earns setup.settings.workaround (setup.after before) p j
      ((setup.after before).cause event)
  · obtain ⟨p, j, hearns⟩ := hearned
    have hown := Node.hasOwnConn_of_nodup hconns hk
    have hreleases := Node.Earns.releases (setup.wellFormed_after before) (setup.bound_after before)
      (setup.tlsActive_of_trusted before) setup.settings hearns (k := k)
    rw [FreesLink]
    rw [after_snoc, next_event] at hown ⊢
    refine (hreleases hown).congr ⟨fun h => ⟨p, j, hearns, h⟩, ?_⟩
    rintro ⟨p', j', hearns', h⟩
    rwa [hearns'.pair_unique hearns] at h
  · have hnot : ∀ p j, ¬ Node.Earns setup.settings.workaround (setup.after before) p j
        ((setup.after before).cause event) := fun p j h => hearned ⟨p, j, h⟩
    exact (hquiet hnot).congr (iff_of_false id fun ⟨p, j, hearns, _⟩ => hnot p j hearns)

/-- On a connection whose peer has announced no stream, an event writes keys and questions just if
it makes a pair of the connection trusted. -/
theorem releases_event (before : List (Occurrence τ)) {event : Event} {k : SessionKey}
    (hconns : ((setup.after (before ++ [.event event])).sessions.map (·.conn)).Nodup)
    (hsend : ∀ pair stanza, event ≠ .send pair stanza)
    (hk : k < (setup.after (before ++ [.event event])).sessions.length)
    (hid : ((setup.after (before ++ [.event event])).session k).peerStreamId = none) :
    Node.Releases (setup.after before) (setup.after (before ++ [.event event])) k
      (setup.FreesLink before event k) := by
  refine setup.releases_event_of before hconns hk fun hnot => ?_
  rw [after_snoc, next_event] at hconns hk hid ⊢
  exact Node.releases_of_not_earns (setup.wellFormed_after before) (setup.bound_after before)
    setup.settings hnot hsend hconns hk hid

theorem peerStreamId_eq_none_of_append {before rest : List (Occurrence τ)} {k : SessionKey}
    (hid : ((setup.after (before ++ rest)).session k).peerStreamId = none) :
    ((setup.after before).session k).peerStreamId = none := by
  by_contra hannounced
  exact setup.kept_append (P := fun n => (n.session k).peerStreamId ≠ none)
    (fun hmoves hn hnone => hn (hmoves.peerStreamId_eq_none hnone)) (fun _ _ _ hn => hn) rest
    hannounced hid

/-- What is written when a caller sends traffic is that traffic. -/
theorem log_step_send (n : Node τ) (chain : Chain τ) (pair : DomainPair) (stanza : Element) :
    ∃ added, (n.step chain (.send pair stanza)).log = n.log ++ added ∧
      ∀ conn batch accepted, Effect.write conn batch accepted ∈ added → batch = [stanza] := by
  simp only [Node.step, Node.send]
  split
  · exact ⟨[], (List.append_nil _).symm, fun _ _ _ h => by cases h⟩
  · rename_i k hroute
    obtain ⟨accepted, hlog⟩ := Node.log_write n (n.session k).conn [stanza]
    refine ⟨_, hlog, fun conn batch accepted' h => ?_⟩
    exact (Effect.write.inj (List.mem_singleton.mp h)).2.1

/-- Before its peer has announced a stream, a key or a question is written on a connection only as
the traffic of a caller, or when a pair of the connection becomes trusted. At each event just the
latter releases what waits, all of it, and no key waits. -/
theorem control_held_back {past : List (Occurrence τ)}
    (hconns : ((setup.after past).sessions.map (·.conn)).Nodup) :
    (∀ before event rest k, past = before ++ .event event :: rest →
      (∀ pair stanza, event ≠ .send pair stanza) →
      k < (setup.after (before ++ [.event event])).sessions.length →
      ((setup.after (before ++ [.event event])).session k).peerStreamId = none →
      Node.Releases (setup.after before) (setup.after (before ++ [.event event])) k
        (setup.FreesLink before event k)) ∧
    ∀ k e, k < (setup.after past).sessions.length →
      ((setup.after past).session k).peerStreamId = none → Stanza.IsControl e →
      (∃ batch accepted, Effect.write ((setup.after past).session k).conn batch accepted ∈
        (setup.after past).log ∧ e ∈ batch) →
      ∃ before event rest, past = before ++ .event event :: rest ∧
        ((∃ pair, event = .send pair e) ∨ setup.FreesLink before event k ∧
          e ∈ ((setup.after before).session k).waiting ∧ ¬ Stanza.IsKey e) := by
  have hreleases : ∀ before event rest k, past = before ++ .event event :: rest →
      (∀ pair stanza, event ≠ .send pair stanza) →
      k < (setup.after (before ++ [.event event])).sessions.length →
      ((setup.after (before ++ [.event event])).session k).peerStreamId = none →
      Node.Releases (setup.after before) (setup.after (before ++ [.event event])) k
        (setup.FreesLink before event k) := by
    intro before event rest k heq hsend hk hid
    have hsplit : past = (before ++ [.event event]) ++ rest := by simp [heq]
    rw [hsplit] at hconns
    exact setup.releases_event before (setup.nodup_conns_of_append hconns) hsend hk hid
  refine ⟨hreleases, ?_⟩
  rintro k e hk hid hcontrol ⟨batch, accepted, hwritten, he⟩
  obtain ⟨before, event, rest, heq, hnot, hsince⟩ := setup.exists_since
    (P := fun n => Effect.write ((setup.after past).session k).conn batch accepted ∈ n.log)
    List.not_mem_nil (fun _ _ _ hn => hn) hwritten
  have hsplit : past = (before ++ [.event event]) ++ rest := by simp [heq]
  have hafter := hsince [] List.nil_prefix
  refine ⟨before, event, rest, heq, ?_⟩
  by_cases hsend : ∃ pair stanza, event = .send pair stanza
  · obtain ⟨pair, stanza, rfl⟩ := hsend
    obtain ⟨added, hlog, hbatch⟩ := log_step_send (setup.after before) setup.chain pair stanza
    rw [after_snoc, next_event, hlog] at hafter
    rw [hbatch _ _ _ ((List.mem_append.mp hafter).resolve_left hnot), List.mem_singleton] at he
    exact Or.inl ⟨pair, by rw [he]⟩
  · have hnosend : ∀ pair stanza, event ≠ .send pair stanza := fun pair stanza h =>
      hsend ⟨pair, stanza, h⟩
    -- The session that has the connection now had it when this was written.
    have hk' : k < (setup.after (before ++ [.event event])).sessions.length := by
      obtain ⟨added, hlog, hwrites⟩ := (setup.moves_event before event).exists_added
      rw [after_snoc, next_event, hlog] at hafter
      obtain ⟨n', j, -, hlater, hconn, hspoken⟩ := hwrites _ batch accepted
        ((List.mem_append.mp hafter).resolve_left hnot)
      have hj := (hspoken e he).lt_length hcontrol fun pair stanza hcall =>
        hnosend pair stanza (Node.eq_of_cause_eq_call hcall)
      rw [← setup.next_event, ← after_snoc] at hlater
      obtain ⟨hlt, hidentity, -⟩ := setup.kept_after hlater rest hj
      rw [← heq] at hlt hidentity
      have hsame := Node.eq_of_nodup hconns hlt hk ((Session.conn_eq hidentity).trans hconn)
      exact hsame ▸ Nat.lt_of_lt_of_le hj (Node.Moves.length_le hlater)
    have hidentity := (setup.identity_append _ rest hk').2
    rw [← hsplit] at hidentity
    have hreleased := hreleases before event rest k heq hnosend hk'
      (setup.peerStreamId_eq_none_of_append (by rwa [← hsplit]))
    obtain ⟨added, hlog, hwrites⟩ := hreleased.log
    rw [hlog] at hafter
    rw [← Session.conn_eq hidentity] at hwrites
    obtain ⟨hfrees, hwaiting⟩ := (hwrites e hcontrol).mp ⟨batch, accepted,
      (List.mem_append.mp hafter).resolve_left hnot, he⟩
    exact Or.inr ⟨hfrees, hwaiting, setup.not_isKey_of_mem_waiting before k e hwaiting⟩

def relayAndLink : List (Occurrence Simulated) :=
  [.event (.accept ⟨1⟩ "192.0.2.1"),
    .event (.receive ⟨1⟩ (Stanza.key "a.example" "b.example" "key")),
    .event (.openConnection ⟨"b.example", "a.example"⟩ none),
    .event (.streamOpened ⟨1001⟩ { id := some "x" })]

/-- When our key is found valid, the question is written on the relay. -/
theorem control_held_back_of_relayAndLink :
    let event : Event :=
      .receive ⟨1001⟩ (Stanza.resultReply "a.example" "b.example" .valid none)
    let past := relayAndLink ++ [.event event]
    let question := Stanza.verifyRequest "b.example" "a.example"
      ((served.after relayAndLink).session 0).streamId "key"
    ((served.after past).sessions.map (·.conn)).Nodup ∧
    ((served.after past).session 1).role = .outbound ∧
    ((served.after past).session 1).peerStreamId = none ∧
    ((served.after relayAndLink).session 1).waiting = [question] ∧
    served.FreesLink relayAndLink event 1 ∧ ((served.after past).session 1).waiting = [] ∧
    ∃ batch accepted, Effect.write ⟨1000⟩ batch accepted ∈ (served.after past).log ∧
      question ∈ batch := by
  intro event past question
  have hnow : ((served.after past).sessions.map (·.conn)).Nodup ∧
      1 < (served.after past).sessions.length ∧
      ((served.after past).session 1).role = .outbound ∧
      ((served.after past).session 1).peerStreamId = none ∧
      ((served.after past).session 1).conn = ⟨1000⟩ ∧
      1 ∈ (served.after past).linkKeys ⟨"b.example", "a.example"⟩ := by
    simp only [past]
    rw [after_eq_foldl]
    decide +kernel
  have hbefore : (served.after relayAndLink).find? ⟨1001⟩ = some 2 ∧
      ((served.after relayAndLink).session 1).waiting = [question] ∧
      ((served.after relayAndLink).session 1).isClosing = false ∧
      ((served.after relayAndLink).session 2).hasKeyRequest "a.example" ∧
      (served.after relayAndLink).directory.pairNamed?
        (Stanza.resultReply "a.example" "b.example" .valid none) =
          some ⟨"b.example", "a.example"⟩ := by
    simp only [question]
    rw [after_eq_foldl]
    decide +kernel
  obtain ⟨hconns, hk, hrole, hid, hconn, hlink⟩ := hnow
  obtain ⟨hfind, hwaiting, hclosing, hrequest, hnamed⟩ := hbefore
  have hcause : (served.after relayAndLink).cause event =
      .heard 2 (Stanza.resultReply "a.example" "b.example" .valid none) := by
    simp [Node.cause, event, hfind]
  have hfrees : served.FreesLink relayAndLink event 1 := by
    refine ⟨⟨"b.example", "a.example"⟩, 2, ?_, hlink, hclosing⟩
    rw [hcause]
    exact .verdict 2 _ (Stanza.of?_resultReply _ _ _ _) (Stanza.type_resultReply _ _ _ _) hnamed
      hrequest
  have hreleases := (served.control_held_back hconns).1 relayAndLink event [] 1 rfl
    (fun _ _ => Event.noConfusion) hk hid
  obtain ⟨added, hlog, hwrites⟩ := hreleases.log
  obtain ⟨batch, accepted, hwrite, hquestion⟩ :=
    (hwrites question
      ⟨by rw [Stanza.of?_verifyRequest]; rfl, Stanza.type_verifyRequest _ _ _ _⟩).mpr
      ⟨hfrees, by rw [hwaiting]; exact List.mem_singleton_self _⟩
  refine ⟨hconns, hrole, hid, hwaiting, hfrees, hreleases.released hfrees, batch, accepted, ?_,
    hquestion⟩
  rw [hlog, ← hconn]
  exact List.mem_append_right _ hwrite

end Setup

end Federation
