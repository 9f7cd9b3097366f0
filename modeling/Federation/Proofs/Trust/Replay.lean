import Federation.Proofs.Trust.Closing
import Federation.Proofs.Trust.Requests
import Mathlib.Data.Nat.Count

/-!
Answers that come again. A request of ours is recorded when it is queued and taken back by the first
answer to it, so no more answers have an effect than requests were queued, however often keys are
presented again and in whatever order the answers come. An answer that is not due is ignored.
-/

namespace Federation

namespace Registry

theorem isAuthenticated_alter {f : TrustEntry → TrustEntry} (hpair : ∀ e, (f e).pair = e.pair)
    (hauth : ∀ e, (f e).isAuthenticated = e.isAuthenticated) (r : Registry) (p q : DomainPair) :
    (r.alter p f).isAuthenticated q = r.isAuthenticated q := by
  unfold isAuthenticated
  by_cases hq : q = p
  · subst hq
    rw [get?_alter_self hpair]
    cases r.get? q with
    | none => rfl
    | some e => exact hauth e
  · rw [get?_alter_of_ne hpair r hq]

/-- A new entry is not trusted. -/
theorem isAuthenticated_ensure (r : Registry) (p q : DomainPair) :
    (r.ensure p).isAuthenticated q = r.isAuthenticated q := by
  unfold isAuthenticated
  by_cases hq : q = p
  · subst hq
    rw [get?_ensure_self]
    cases r.get? q <;> rfl
  · rw [get?_ensure_of_ne r hq]

end Registry

def Session.ledger (s : Session) :
    Bool × List DomainPair × List String × List (String × String) × List Element :=
  (s.isAuthenticated, s.trusted, s.keyRequests, s.verifyRequests, s.waiting)

/-- What answers a request has an effect: a verdict that finds a key valid, or any answer
to a question. -/
def Stanza.IsAnswer (e : Element) : Prop :=
  DialbackKind.of? e = some .result ∧ e.attr? "type" = some "valid" ∨
    DialbackKind.of? e = some .verify ∧ (e.attr? "type").isSome

inductive Request.Answers (peer : String) (stanza : Element) : Request → Prop
  | key (domain : String) (hpeer : Text.lower domain = peer)
      (hkind : DialbackKind.of? stanza = some .result)
      (htype : stanza.attr? "type" = some "valid") : Answers peer stanza (.key domain)
  | question (domain id : String) (hpeer : Text.lower domain = peer)
      (hkind : DialbackKind.of? stanza = some .verify)
      (htype : (stanza.attr? "type").isSome) (hid : stanza.attr? "id" = some id) :
      Answers peer stanza (.question domain id)

theorem Request.Answers.isAnswer {peer : String} {stanza : Element} {q : Request}
    (h : Answers peer stanza q) : Stanza.IsAnswer stanza := by
  cases h with
  | key domain hpeer hkind htype => exact Or.inl ⟨hkind, htype⟩
  | question domain id hpeer hkind htype => exact Or.inr ⟨hkind, htype⟩

/-- All requests that an answer answers are the same one. -/
theorem Request.Answers.isDue_iff {peer : String} {stanza : Element} {q q' : Request}
    (h : Answers peer stanza q) (h' : Answers peer stanza q') (s : Session) :
    q.IsDue s ↔ q'.IsDue s := by
  cases h with
  | key domain hpeer hkind htype =>
    cases h' with
    | key domain' hpeer' =>
      simp only [IsDue, Session.hasKeyRequest, hpeer, hpeer']
    | question domain' id' hpeer' hkind' =>
      rw [hkind] at hkind'
      cases hkind'
  | question domain id hpeer hkind htype hid =>
    cases h' with
    | key domain' hpeer' hkind' =>
      rw [hkind] at hkind'
      cases hkind'
    | question domain' id' hpeer' hkind' htype' hid' =>
      obtain rfl : id = id' := Option.some.inj (hid.symm.trans hid')
      simp only [IsDue, Session.hasVerifyRequest, hpeer, hpeer']

namespace Node

variable {τ : Type}

/-- What is heard on a session is ignored: no pair and no session becomes trusted, no request is
recorded or taken back, nothing is queued or written, and no connection is torn down but the one it
was heard on, if that is a relay. -/
structure Ignores (n m : Node τ) (r : SessionKey) : Prop where
  pairs : ∀ p, m.registry.isAuthenticated p = n.registry.isAuthenticated p
  ledgers : ∀ k, (m.session k).ledger = (n.session k).ledger
  closing : ∀ k, (m.session k).isClosing = (n.session k).isClosing ∨
    k = r ∧ (n.session r).isRelay
  log : m.log = n.log ∨
    (n.session r).isRelay ∧ m.log = n.log ++ [.stop (n.session r).conn false]

section TakeIn

variable (n : Node τ) (k : SessionKey) (spelled p : DomainPair)

theorem isAuthenticated_takeIn (q : DomainPair) :
    (n.takeIn k spelled p).registry.isAuthenticated q = n.registry.isAuthenticated q := by
  have hensure := n.registry.isAuthenticated_ensure p q
  unfold takeIn
  simp only
  split
  · rw [registry_addIncoming, Registry.isAuthenticated_alter
      (f := (·.addIncoming (Node.link _ k))) (fun _ => rfl) fun _ => rfl]
    exact hensure
  · exact hensure

theorem ignores_takeIn : Ignores n (n.takeIn k spelled p) k where
  pairs := isAuthenticated_takeIn n k spelled p
  ledgers := view_session_takeIn n k spelled p Session.ledger (fun _ => rfl) fun _ => rfl
  closing := fun j => Or.inl
    (view_session_takeIn n k spelled p Session.isClosing (fun _ => rfl) (fun _ => rfl) j)
  log := Or.inl (log_takeIn n k spelled p)

end TakeIn

variable [Transport τ]

/-- A relay is torn down by whatever answer it brings. -/
theorem ignores_takeIn_stop {n : Node τ} {r : SessionKey} (hrelay : (n.session r).isRelay)
    (spelled p : DomainPair) : Ignores n ((n.takeIn r spelled p).stop r false) r := by
  have htaken := ignores_takeIn n r spelled p
  have hconn : ((n.takeIn r spelled p).session r).conn = (n.session r).conn :=
    view_session_takeIn n r spelled p Session.conn (fun _ => rfl) (fun _ => rfl) r
  refine ⟨fun q => ?_, fun k => ?_, fun k => ?_, ?_⟩
  · rw [registry_stop]
    exact htaken.pairs q
  · rw [view_session_stop _ Session.ledger fun _ => rfl]
    exact htaken.ledgers k
  · by_cases hk : k = r
    · exact Or.inr ⟨hk, hrelay⟩
    · rw [session_stop, if_neg fun h => hk h.1]
      exact htaken.closing k
  · unfold Node.stop
    split
    · exact htaken.log
    · refine Or.inr ⟨hrelay, ?_⟩
      have hlog := log_takeIn n r spelled p
      rw [← hconn, ← hlog]
      rfl

section Receive

variable {n : Node τ} (hn : n.WellFormed) (settings : Settings) {conn : ConnId} {r : SessionKey}
  (hfind : n.find? conn = some r) {stanza : Element} {p : DomainPair}
  (hnamed : n.directory.pairNamed? stanza = some p)

include hn hfind hnamed

theorem ignores_of_no_key_request (hkind : DialbackKind.of? stanza = some .result)
    (htype : stanza.attr? "type" = some "valid")
    (hnone : ¬ (n.session r).hasKeyRequest p.peer) :
    Ignores n (n.step (Chain.standard settings) (.receive conn stanza)) r := by
  have hnone' : ¬ ((n.takeIn r stanza.spelled p).session r).hasKeyRequest p.peer := by
    rwa [hasKeyRequest_takeIn]
  rw [step_receive_dialback hn settings hfind hkind hnamed]
  simp only [dispatchDialback, htype, Option.map_some, Verdict.parse, if_true, receiveVerdict]
  rw [if_neg hnone']
  exact ignores_takeIn n r stanza.spelled p

theorem ignores_of_no_verify_request (hkind : DialbackKind.of? stanza = some .verify)
    {text : String} (htype : stanza.attr? "type" = some text)
    (hnone : ∀ id, stanza.attr? "id" = some id → ¬ (n.session r).hasVerifyRequest p.peer id) :
    Ignores n (n.step (Chain.standard settings) (.receive conn stanza)) r := by
  let taken := n.takeIn r stanza.spelled p
  have hrelayed : taken.relayVerdict r p stanza (.parse text) = taken := by
    unfold relayVerdict
    split
    · rfl
    · rename_i id hid
      have hnone' : (taken.session r).hasVerifyRequest p.peer id = false := by
        rw [hasVerifyRequest_takeIn]
        simpa using hnone id hid
      simp only [hnone', Bool.not_false, if_true]
  have hrelay : (taken.session r).isRelay = (n.session r).isRelay :=
    view_session_takeIn n r _ p Session.isRelay (fun _ => rfl) (fun _ => rfl) r
  rw [step_receive_dialback hn settings hfind hkind hnamed]
  simp only [dispatchDialback, htype, Option.map_some, receiveVerifyReply]
  rw [hrelayed]
  split
  · rename_i hisRelay
    exact ignores_takeIn_stop (hrelay.symm.trans hisRelay) stanza.spelled p
  · exact ignores_takeIn n r stanza.spelled p

/-- The first verdict takes the request back, so that the next one finds none. -/
theorem not_hasKeyRequest_of_valid (hkind : DialbackKind.of? stanza = some .result)
    (htype : stanza.attr? "type" = some "valid") (hrequest : (n.session r).hasKeyRequest p.peer) :
    ¬ ((n.step (Chain.standard settings) (.receive conn stanza)).session r).hasKeyRequest
      p.peer := by
  have hr := (hn.live conn r hfind).1
  rw [step_receive_valid hn settings hfind hkind htype hnamed hrequest, authenticate,
    view_session_flushPair (·.hasKeyRequest p.peer) fun _ => rfl, session_trust,
    session_alter_self (by simpa using hr)]
  have hdropped := Session.hasKeyRequest_dropKeyRequest
    ((n.takeIn r stanza.spelled p).session r) p.peer p.peer
  split
  · rw [show ∀ s : Session, ((s.join p).markTrusted p).hasKeyRequest p.peer =
      s.hasKeyRequest p.peer from fun _ => rfl, hdropped]
    simp
  · rw [hdropped]
    simp

theorem not_hasVerifyRequest_of_answer (hkind : DialbackKind.of? stanza = some .verify)
    {text id : String} (htype : stanza.attr? "type" = some text)
    (hid : stanza.attr? "id" = some id) (hrequest : (n.session r).hasVerifyRequest p.peer id) :
    ¬ ((n.step (Chain.standard settings) (.receive conn stanza)).session r).hasVerifyRequest
      p.peer id := by
  have hr := (hn.live conn r hfind).1
  let taken := n.takeIn r stanza.spelled p
  let settled := taken.alter r (·.dropVerifyRequest p.peer id)
  have hrequest' : (taken.session r).hasVerifyRequest p.peer id :=
    (hasVerifyRequest_takeIn n r _ p p.peer id r).trans hrequest
  have hsettled : (settled.session r).hasVerifyRequest p.peer id = false := by
    simp only [settled]
    rw [session_alter_self (by simpa [taken] using hr),
      Session.hasVerifyRequest_dropVerifyRequest]
    simp
  have htrusted : ∀ t, ((settled.authenticate p t).session r).hasVerifyRequest p.peer id =
      (settled.session r).hasVerifyRequest p.peer id := by
    intro t
    rw [authenticate, view_session_flushPair (·.hasVerifyRequest p.peer id) fun _ => rfl,
      session_trust]
    split <;> rfl
  have hrelayed : ((taken.relayVerdict r p stanza (.parse text)).session r).hasVerifyRequest
      p.peer id = false := by
    simp only [relayVerdict, hid, hrequest', Bool.not_true, Bool.false_eq_true, if_false]
    by_cases hvalid : Verdict.parse text = .valid
    · simp only [hvalid, decide_true, if_true, authenticateByStream]
      cases settled.incomingByStream? p id with
      | none => exact hsettled
      | some t => exact (htrusted t).trans hsettled
    · simp only [hvalid, decide_false, Bool.false_eq_true, if_false]
      cases settled.incomingByStream? p id with
      | none => exact hsettled
      | some t => exact hsettled
  rw [step_receive_dialback hn settings hfind hkind hnamed]
  simp only [dispatchDialback, htype, Option.map_some, receiveVerifyReply, Bool.not_eq_true]
  split
  · rw [view_session_stop _ (·.hasVerifyRequest p.peer id) fun _ => rfl]
    exact hrelayed
  · exact hrelayed

/-- An answer for which nothing is outstanding is ignored. -/
theorem ignores_of_not_isDue (hanswer : Stanza.IsAnswer stanza)
    (hnone : ∀ q, Request.Answers p.peer stanza q → ¬ q.IsDue (n.session r)) :
    Ignores n (n.step (Chain.standard settings) (.receive conn stanza)) r := by
  have hlower := (Directory.isCanonical_of_pairNamed? hnamed).lower_peer
  rcases hanswer with ⟨hkind, htype⟩ | ⟨hkind, htype⟩
  · exact ignores_of_no_key_request hn settings hfind hnamed hkind htype
      (hnone _ (.key p.peer hlower hkind htype))
  · obtain ⟨text, htext⟩ := Option.isSome_iff_exists.mp htype
    exact ignores_of_no_verify_request hn settings hfind hnamed hkind htext fun id hid =>
      hnone _ (.question p.peer id hlower hkind htype hid)

/-- An answer that is due takes its request back. -/
theorem not_isDue_of_answers {q : Request} (hanswers : Request.Answers p.peer stanza q)
    (hdue : q.IsDue (n.session r)) :
    ¬ q.IsDue ((n.step (Chain.standard settings) (.receive conn stanza)).session r) := by
  have hlower := (Directory.isCanonical_of_pairNamed? hnamed).lower_peer
  cases hanswers with
  | key domain hpeer hkind htype =>
    have hsame : ∀ s : Session, s.hasKeyRequest domain = s.hasKeyRequest p.peer := fun s => by
      rw [Session.hasKeyRequest, Session.hasKeyRequest, hlower, hpeer]
    rw [Request.IsDue, hsame] at hdue ⊢
    exact not_hasKeyRequest_of_valid hn settings hfind hnamed hkind htype hdue
  | question domain id hpeer hkind htype hid =>
    have hsame : ∀ s : Session, s.hasVerifyRequest domain id = s.hasVerifyRequest p.peer id :=
      fun s => by rw [Session.hasVerifyRequest, Session.hasVerifyRequest, hlower, hpeer]
    obtain ⟨text, htext⟩ := Option.isSome_iff_exists.mp htype
    rw [Request.IsDue, hsame] at hdue ⊢
    exact not_hasVerifyRequest_of_answer hn settings hfind hnamed hkind htext hid hdue

end Receive

def Heeds (q : Request) (r : SessionKey) (n : Node τ) (event : Event) (m : Node τ) : Prop :=
  ∃ conn stanza p, event = .receive conn stanza ∧ n.find? conn = some r ∧
    n.directory.pairNamed? stanza = some p ∧ Request.Answers p.peer stanza q ∧ ¬ Ignores n m r

/-- A request is put on a session, which is not the traffic of a caller, and is outstanding then. -/
def Requests (q : Request) (r : SessionKey) (n : Node τ) (event : Event) (m : Node τ) : Prop :=
  (∀ pair stanza, event ≠ .send pair stanza) ∧ q.IsDue (m.session r) ∧
    ∃ stanza, q.Spells stanza ∧ Queues n m r stanza

end Node

namespace Setup

variable {τ : Type} [Transport τ] (setup : Setup τ)

def HappensAt (kind : Node τ → Event → Node τ → Prop) (past : List (Occurrence τ)) (i : ℕ) : Prop :=
  ∃ event, past[i]? = some (.event event) ∧
    kind (setup.after (past.take i)) event (setup.after (past.take (i + 1)))

open Classical in
noncomputable def eventCount (kind : Node τ → Event → Node τ → Prop) (past : List (Occurrence τ)) :
    ℕ :=
  Nat.count (setup.HappensAt kind past) past.length

section Count

variable (kind : Node τ → Event → Node τ → Prop) (past : List (Occurrence τ))

theorem happensAt_snoc_of_lt (o : Occurrence τ) {i : ℕ} (hi : i < past.length) :
    setup.HappensAt kind (past ++ [o]) i ↔ setup.HappensAt kind past i := by
  rw [HappensAt, HappensAt, List.getElem?_append_left hi, List.take_append_of_le_length hi.le,
    List.take_append_of_le_length hi]

theorem happensAt_snoc_last (o : Occurrence τ) :
    setup.HappensAt kind (past ++ [o]) past.length ↔
      ∃ event, o = .event event ∧
        kind (setup.after past) event (setup.after (past ++ [.event event])) := by
  have hlast : (past ++ [o]).take (past.length + 1) = past ++ [o] :=
    List.take_of_length_le (by simp)
  simp only [HappensAt, List.getElem?_concat_length, List.take_left, hlast, Option.some.injEq]
  refine exists_congr fun event => and_congr_right fun ho => ?_
  rw [ho]

open Classical in
theorem eventCount_snoc (o : Occurrence τ) :
    setup.eventCount kind (past ++ [o]) = setup.eventCount kind past +
      if setup.HappensAt kind (past ++ [o]) past.length then 1 else 0 := by
  rw [eventCount, List.length_append, List.length_singleton, Nat.count_succ, eventCount]
  congr 1
  rw [Nat.count_eq_card_filter_range, Nat.count_eq_card_filter_range]
  congr 1
  exact Finset.filter_congr fun i hi =>
    setup.happensAt_snoc_of_lt kind past o (Finset.mem_range.mp hi)

end Count

open Classical in
/-- What is taken back only while it is due, and becomes due only by being added, is taken back no
more often than it is added. -/
theorem eventCount_le {takes adds : Node τ → Event → Node τ → Prop} (due : Node τ → Prop)
    (hstart : ¬ due setup.start)
    (hdrift : ∀ n transport pinned, due { n with transport := transport, pinned := pinned } → due n)
    (htakes : ∀ past event, takes (setup.after past) event (setup.after (past ++ [.event event])) →
      due (setup.after past) ∧ ¬ due (setup.after (past ++ [.event event])))
    (hadds : ∀ past event, ¬ due (setup.after past) →
      due (setup.after (past ++ [.event event])) →
      adds (setup.after past) event (setup.after (past ++ [.event event])))
    (past : List (Occurrence τ)) :
    setup.eventCount takes past ≤ setup.eventCount adds past := by
  -- What is due was added and has not been taken back since.
  have haccount : setup.eventCount takes past + (if due (setup.after past) then 1 else 0) ≤
      setup.eventCount adds past := by
    induction past using List.reverseRecOn with
    | nil => simp [eventCount, after, hstart]
    | append_singleton past o ih =>
      rw [eventCount_snoc, eventCount_snoc]
      simp only [happensAt_snoc_last]
      cases o with
      | drift transport pinned =>
        have hdue := hdrift (setup.after past) transport pinned
        rw [after_snoc, next]
        simp only [reduceCtorEq, false_and, exists_false, if_false]
        split <;> rename_i hnow
        · rw [if_pos (hdue hnow)] at ih
          omega
        · omega
      | event event =>
        have htake := htakes past event
        have hadd := hadds past event
        simp only [Occurrence.event.injEq, exists_eq_left']
        split <;> rename_i htaken
        · rw [if_pos (htake htaken).1] at ih
          rw [if_neg (htake htaken).2]
          omega
        · by_cases hnow : due (setup.after (past ++ [.event event]))
          · by_cases hbefore : due (setup.after past)
            · rw [if_pos hbefore] at ih
              rw [if_pos hnow]
              omega
            · rw [if_pos hnow, if_pos (hadd hbefore hnow)]
              omega
          · rw [if_neg hnow]
            omega
  omega

/-- On no session more answers to a request have an effect than requests were put on it. The answer
that is due takes its request back and, if it finds a key valid, makes the session trusted; an
answer for which nothing is outstanding is ignored. -/
theorem answers_count_once (past : List (Occurrence τ)) (r : SessionKey) :
    (∀ q, setup.eventCount (Node.Heeds q r) past ≤ setup.eventCount (Node.Requests q r) past) ∧
    ∀ conn stanza p, (setup.after past).find? conn = some r →
      setup.directory.pairNamed? stanza = some p → Stanza.IsAnswer stanza →
      ((∀ q, Request.Answers p.peer stanza q → ¬ q.IsDue ((setup.after past).session r)) →
        Node.Ignores (setup.after past) (setup.after (past ++ [.event (.receive conn stanza)])) r) ∧
      ∀ q, Request.Answers p.peer stanza q → q.IsDue ((setup.after past).session r) →
        ¬ q.IsDue ((setup.after (past ++ [.event (.receive conn stanza)])).session r) ∧
        (DialbackKind.of? stanza = some .result → Node.Trusts (setup.after past)
          (setup.after (past ++ [.event (.receive conn stanza)])) p r) := by
  have hn := setup.wellFormed_after past
  have hsettled : ∀ (past : List (Occurrence τ)) conn stanza p,
      (setup.after past).find? conn = some r →
      (setup.after past).directory.pairNamed? stanza = some p →
      ∀ q, Request.Answers p.peer stanza q → q.IsDue ((setup.after past).session r) →
        ¬ q.IsDue ((setup.after (past ++ [.event (.receive conn stanza)])).session r) := by
    intro past conn stanza p hfind hnamed q hanswers hdue
    rw [after_snoc, next_event]
    exact Node.not_isDue_of_answers (setup.wellFormed_after past) setup.settings hfind hnamed
      hanswers hdue
  refine ⟨fun q => ?_, fun conn stanza p hfind hnamed hanswer => ?_⟩
  · refine setup.eventCount_le (fun n => q.IsDue (n.session r)) ?_ (fun _ _ _ hdue => hdue)
      ?_ ?_ past
    · rw [session_start]
      cases q <;> exact Bool.false_ne_true
    · rintro past event ⟨conn, stanza, p, rfl, hfind, hnamed, hanswers, heeded⟩
      have hdue : q.IsDue ((setup.after past).session r) := by
        by_contra hnot
        refine heeded ?_
        rw [after_snoc, next_event]
        exact Node.ignores_of_not_isDue (setup.wellFormed_after past) setup.settings hfind hnamed
          hanswers.isAnswer fun q' hanswers' => by rwa [hanswers'.isDue_iff hanswers]
      exact ⟨hdue, hsettled past conn stanza p hfind hnamed q hanswers hdue⟩
    · intro past event hnot hnew
      have hqueues := Node.queues_of_isDue (setup.wellFormed_after past) (setup.bound_after past)
        setup.settings event q hnot
      rw [after_snoc, next_event] at hnew ⊢
      exact ⟨(hqueues hnew).1, hnew, (hqueues hnew).2⟩
  · rw [← setup.directory_after past] at hnamed
    refine ⟨fun hnone => ?_, fun q hanswers hdue =>
      ⟨hsettled past conn stanza p hfind hnamed q hanswers hdue, fun hkind => ?_⟩⟩
    · rw [after_snoc, next_event]
      exact Node.ignores_of_not_isDue hn setup.settings hfind hnamed hanswer hnone
    · obtain ⟨-, htype⟩ | ⟨hverify, -⟩ := hanswer
      · have hcause : (setup.after past).cause (.receive conn stanza) = .heard r stanza := by
          simp [Node.cause, hfind]
        have hlower := (Directory.isCanonical_of_pairNamed? hnamed).lower_peer
        have hrequest : ((setup.after past).session r).hasKeyRequest p.peer :=
          (hanswers.isDue_iff (.key p.peer hlower hkind htype) _).mp hdue
        rw [after_snoc, next_event]
        refine Node.Earns.trusts hn (setup.bound_after past) (setup.tlsActive_of_trusted past)
          setup.settings ?_
        rw [hcause]
        exact .verdict r stanza hkind htype hnamed hrequest
      · rw [hkind] at hverify
        cases hverify

/-- A verdict that comes twice makes the session trusted once, and then it is ignored. -/
theorem answers_count_once_of_repeated_verdict :
    let pair : DomainPair := ⟨"b.example", "a.example"⟩
    let verdict : Event :=
      .receive ⟨1000⟩ (Stanza.resultReply "a.example" "b.example" .valid none)
    let heard := keySent pair ++ [.event verdict]
    (served.after (keySent pair)).find? ⟨1000⟩ = some 0 ∧
    ((served.after (keySent pair)).session 0).hasKeyRequest "a.example" ∧
    (served.after heard).find? ⟨1000⟩ = some 0 ∧
    Node.Trusts (served.after (keySent pair)) (served.after heard) pair 0 ∧
    Node.Ignores (served.after heard) (served.after (heard ++ [.event verdict])) 0 := by
  intro pair verdict heard
  have hfirst : (served.after (keySent pair)).find? ⟨1000⟩ = some 0 ∧
      ((served.after (keySent pair)).session 0).hasKeyRequest "a.example" := by
    rw [after_eq_foldl]
    decide +kernel
  have hsecond : (served.after heard).find? ⟨1000⟩ = some 0 := by
    rw [after_eq_foldl]
    decide +kernel
  have hnamed : served.directory.pairNamed?
      (Stanza.resultReply "a.example" "b.example" .valid none) = some pair := by decide +kernel
  have hkind := Stanza.of?_resultReply "a.example" "b.example" .valid none
  have htype : (Stanza.resultReply "a.example" "b.example" .valid none).attr? "type" =
      some "valid" := by decide +kernel
  have hanswers : Request.Answers "a.example"
      (Stanza.resultReply "a.example" "b.example" .valid none) (.key "a.example") :=
    .key "a.example" (by decide +kernel) hkind htype
  obtain ⟨-, htaken⟩ := (served.answers_count_once (keySent pair) 0).2 ⟨1000⟩ _ pair hfirst.1
    hnamed hanswers.isAnswer
  obtain ⟨hgone, htrusts⟩ := htaken _ hanswers hfirst.2
  obtain ⟨hignored, -⟩ := (served.answers_count_once heard 0).2 ⟨1000⟩ _ pair hsecond hnamed
    hanswers.isAnswer
  exact ⟨hfirst.1, hfirst.2, hsecond, htrusts hkind,
    hignored fun q hq => by rwa [hq.isDue_iff hanswers]⟩

end Setup

end Federation
