import Federation.Proofs.Domain.Part
import Federation.Proofs.Node.History

/-!
Questions about keys and their answers, as they go over the wire. In a queue there are only
questions, and each was put at some event. What was heard and what was written on a connection are
lists, so that the two ends of a line can be compared.
-/

namespace Federation

theorem Node.Moves.mem_waiting {τ : Type} [Transport τ] {n m : Node τ} (hlive : n.WellFormed)
    {event : Event} (h : Node.Moves (n.cause event) n m) {k : SessionKey} {e : Element}
    (he : e ∈ (m.session k).waiting) :
    e ∈ (n.session k).waiting ∨ ∃ p id key, Asks n p id key (n.cause event) ∧
      e = Stanza.verifyRequest p.own p.peer id key := by
  by_cases hold : e ∈ (n.session k).waiting
  · exact Or.inl hold
  · obtain ⟨n', m', hbefore, hmove, -, hnot, hnew⟩ :=
      Moves.exists_move (P := fun n => e ∈ (n.session k).waiting) h hold he
    rcases (hmove.change k).mem_waiting hnew with hsame | ⟨p, id, key, hasks, -, heq⟩
    · exact absurd hsame hnot
    · exact Or.inr ⟨p, id, key, hasks.before hlive hbefore, heq⟩

namespace Setup

variable {τ : Type} [Transport τ] (setup : Setup τ)

/-- What waits on a session is a question that was put at some event. -/
theorem exists_asked {past : List (Occurrence τ)} {k : SessionKey} {e : Element}
    (h : e ∈ ((setup.after past).session k).waiting) :
    ∃ before event rest p id key, past = before ++ .event event :: rest ∧
      Node.Asks (setup.after before) p id key ((setup.after before).cause event) ∧
      e = Stanza.verifyRequest p.own p.peer id key := by
  obtain ⟨before, event, rest, heq, hnot, hafter, -⟩ :=
    setup.exists_event (Q := fun s => e ∈ s.waiting) List.not_mem_nil h
  rcases (setup.moves_event before event).mem_waiting (setup.wellFormed_after before) hafter with
    hold | ⟨p, id, key, hasks, hrequest⟩
  · exact absurd hold hnot
  · exact ⟨before, event, rest, p, id, key, heq, hasks, hrequest⟩

/-- In the middle of an event, too, there is nothing else in a queue. -/
theorem exists_asked_of_moves {before : List (Occurrence τ)} {event : Event} {n : Node τ}
    (hbefore : Node.Moves ((setup.after before).cause event) (setup.after before) n)
    {k : SessionKey} {e : Element} (h : e ∈ (n.session k).waiting) :
    ∃ earlier asking later p id key,
      before ++ [.event event] = earlier ++ .event asking :: later ∧
      Node.Asks (setup.after earlier) p id key ((setup.after earlier).cause asking) ∧
      e = Stanza.verifyRequest p.own p.peer id key := by
  rcases hbefore.mem_waiting (setup.wellFormed_after before) h with
    hold | ⟨p, id, key, hasks, hrequest⟩
  · obtain ⟨earlier, asking, later, p, id, key, heq, hasks, hrequest⟩ := setup.exists_asked hold
    exact ⟨earlier, asking, later ++ [.event event], p, id, key, by simp [heq], hasks, hrequest⟩
  · exact ⟨before, event, [], p, id, key, rfl, hasks, hrequest⟩

/-- What was written was written first at some event, for what the node said then. -/
theorem exists_first_writing {past : List (Occurrence τ)} {conn : ConnId} {batch : List Element}
    {accepted : Bool} (h : Effect.write conn batch accepted ∈ (setup.after past).log) :
    ∃ before event rest n k, past = before ++ .event event :: rest ∧
      Effect.write conn batch accepted ∉ (setup.after before).log ∧
      Effect.write conn batch accepted ∈ (setup.after (before ++ [.event event])).log ∧
      Node.Moves ((setup.after before).cause event) (setup.after before) n ∧
      Node.Moves ((setup.after before).cause event) n (setup.after (before ++ [.event event])) ∧
      (n.session k).conn = conn ∧
      ∀ e ∈ batch, Node.Says n k ((setup.after before).cause event) e := by
  obtain ⟨before, event, rest, heq, hnot, hsince⟩ := setup.exists_since
    (P := fun n => Effect.write conn batch accepted ∈ n.log) List.not_mem_nil
    (fun _ _ _ hn => hn) h
  have hafter := hsince [] List.nil_prefix
  have hstep := hafter
  rw [after_snoc] at hstep
  obtain ⟨added, hlog, hwrites⟩ := (setup.moves_event before event).exists_added
  have hadded : Effect.write conn batch accepted ∈ added := by
    rw [next, hlog] at hstep
    rcases List.mem_append.mp hstep with hold | hnew
    · exact absurd hold hnot
    · exact hnew
  obtain ⟨n, k, hbefore, hlater, hconn, hsays⟩ := hwrites conn batch accepted hadded
  refine ⟨before, event, rest, n, k, heq, hnot, hafter, hbefore, ?_, hconn, hsays⟩
  rw [after_snoc]
  exact hlater

theorem exists_writing {past : List (Occurrence τ)} {conn : ConnId} {batch : List Element}
    {accepted : Bool} (h : Effect.write conn batch accepted ∈ (setup.after past).log) :
    ∃ before event rest n k, past = before ++ .event event :: rest ∧
      Node.Moves ((setup.after before).cause event) (setup.after before) n ∧
      Node.Moves ((setup.after before).cause event) n (setup.after (before ++ [.event event])) ∧
      (n.session k).conn = conn ∧
      ∀ e ∈ batch, Node.Says n k ((setup.after before).cause event) e := by
  obtain ⟨before, event, rest, n, k, heq, -, -, hwriting⟩ := setup.exists_first_writing h
  exact ⟨before, event, rest, n, k, heq, hwriting⟩

end Setup

inductive Directory.Answers (d : Directory) (question : Element) : Element → Prop
  | intro (recipient sender id : String) (hkind : DialbackKind.of? question = some .verify)
      (htype : question.attr? "type" = none) (hto : question.attr? "to" = some recipient)
      (hfrom : question.attr? "from" = some sender) (hid : question.attr? "id" = some id) :
      Answers d question (Stanza.verifyReply (DomainPair.ofAddresses recipient sender).own
        (DomainPair.ofAddresses recipient sender).peer id
        (d.acceptsKey (DomainPair.ofAddresses recipient sender) id (question.cdata.getD "")))

theorem Directory.acceptsKey_iff {d : Directory} {pair : DomainPair} {id presented : String} :
    d.acceptsKey pair id presented ↔ ∃ secret, d.secretFor pair.own = .ok secret ∧
      Text.trim presented = Key.derive pair.own pair.peer secret id := by
  unfold acceptsKey
  cases hsecret : d.secretFor pair.own with
  | error e => simp
  | ok secret =>
    constructor
    · intro h
      exact ⟨secret, rfl, (by simpa [Key.accepts] using h : _ = Text.trim presented).symm⟩
    · rintro ⟨secret', hsame, htrim⟩
      cases hsame
      simp [Key.accepts, htrim]

/-- The answer to a question about a pair is about the same pair, and what it says is whether the
peer accepts the key. -/
theorem Directory.Answers.eq_verifyReply {d : Directory} {isServed : String → Bool} {q : DomainPair}
    {id key : String} {answer : Element} (hq : q.IsCanonical isServed)
    (h : d.Answers (Stanza.verifyRequest q.own q.peer id key) answer) :
    answer = Stanza.verifyReply q.peer q.own id (d.acceptsKey q.reversed id key) := by
  obtain ⟨recipient, sender, id', hkind, htype, hto, hfrom, hid⟩ := h
  rw [Stanza.attr?_verifyRequest] at hto hfrom hid
  have hrecipient : q.peer = recipient := by simpa using hto
  have hsender : q.own = sender := by simpa using hfrom
  have hstream : id = id' := by simpa using hid
  have hpair : DomainPair.ofAddresses q.peer q.own = q.reversed := by
    rw [DomainPair.ofAddresses, DomainPair.ofTexts, hq.part_own, hq.part_peer, hq.lower_own,
      hq.lower_peer, DomainPair.reversed]
  rw [← hrecipient, ← hsender, ← hstream, hpair]
  rfl

/-- An answer that finds a key valid says that the server accepts the key of the question, for the
pair that the question spells. -/
theorem Directory.Answers.exists_accepted {d : Directory} {question answer : Element} {id : String}
    (h : d.Answers question answer) (htype : answer.attr? "type" = some "valid")
    (hid : answer.attr? "id" = some id) :
    ∃ recipient sender asked, asked = DomainPair.ofAddresses recipient sender ∧
      DialbackKind.of? question = some .verify ∧ question.attr? "type" = none ∧
      question.attr? "to" = some recipient ∧ question.attr? "from" = some sender ∧
      question.attr? "id" = some id ∧ d.acceptsKey asked id (question.cdata.getD "") ∧
      answer = Stanza.verifyReply asked.own asked.peer id true := by
  obtain ⟨recipient, sender, id', hkind, huntyped, hto, hfrom, hstream⟩ := h
  rw [Stanza.attr?_verifyReply] at hid
  have hsame : id' = id := by simpa using hid
  subst hsame
  have haccepts := Stanza.eq_true_of_type_verifyReply htype
  exact ⟨recipient, sender, _, rfl, hkind, huntyped, hto, hfrom, hstream, haccepts,
    by rw [haccepts]⟩

/-- The answer to a question that spells a pair names this pair, the other way round. -/
theorem Directory.checked_of_pairNamed?_verifyReply {d : Directory} {recipient sender : String}
    {asked p : DomainPair} (hasked : asked = DomainPair.ofAddresses recipient sender) {id : String}
    {isRight : Bool}
    (h : d.pairNamed? (Stanza.verifyReply asked.own asked.peer id isRight) = some p) :
    DomainPair.checked asked.peer asked.own d.isServed = .ok p := by
  have hspelled : DomainPair.ofAddresses asked.peer asked.own = asked.reversed := by
    rw [hasked]
    exact DomainPair.ofAddresses_ofAddresses sender recipient
  have hto : (Stanza.verifyReply asked.own asked.peer id isRight).attr? "to" = some asked.peer := by
    simp [Stanza.attr?_verifyReply]
  have hfrom : (Stanza.verifyReply asked.own asked.peer id isRight).attr? "from" =
      some asked.own := by simp [Stanza.attr?_verifyReply]
  simp only [pairNamed?, hto, hfrom, hspelled] at h
  cases hcheck : DomainPair.checked asked.reversed.own asked.reversed.peer d.isServed with
  | error e =>
    rw [hcheck] at h
    cases h
  | ok q =>
    rw [hcheck] at h
    obtain rfl := Option.some.inj h
    exact hcheck

/-- A stanza from the peer of a valid pair to its own side names this pair. -/
theorem Directory.pairNamed?_of_attr {d : Directory} {stanza : Element} {p : DomainPair}
    (hp : p.IsCanonical d.isServed) (hto : stanza.attr? "to" = some p.own)
    (hfrom : stanza.attr? "from" = some p.peer) : d.pairNamed? stanza = some p := by
  have hcheck : DomainPair.checked p.own p.peer d.isServed = .ok p := hp
  simp only [pairNamed?, hto, hfrom, hp.ofAddresses_eq, hcheck]
  rfl

theorem DomainPair.IsCanonical.spelled_eq {isServed : String → Bool} {stanza : Element}
    {p : DomainPair} (hp : p.IsCanonical isServed) (hto : stanza.attr? "to" = some p.own)
    (hfrom : stanza.attr? "from" = some p.peer) : stanza.spelled = p := by
  simp only [Element.spelled, hto, hfrom, Option.getD_some, hp.ofAddresses_eq]

theorem Directory.pairNamed?_verifyReply {d : Directory} {q : DomainPair}
    (hq : q.IsCanonical d.isServed) (id : String) (isRight : Bool) :
    d.pairNamed? (Stanza.verifyReply q.peer q.own id isRight) = some q :=
  pairNamed?_of_attr hq (by simp [Stanza.attr?_verifyReply]) (by simp [Stanza.attr?_verifyReply])

def heardOn {τ : Type} (past : List (Occurrence τ)) (conn : ConnId) : List Element :=
  past.filterMap fun
    | .event (.receive c e) => if c = conn then some e else none
    | _ => none

/-- What the transport took for a connection, the oldest first. -/
def Node.writtenOn {τ : Type} (n : Node τ) (conn : ConnId) : List Element :=
  n.log.flatMap fun
    | .write c batch true => if c = conn then batch else []
    | _ => []

theorem heardOn_snoc {τ : Type} (past : List (Occurrence τ)) (o : Occurrence τ) (conn : ConnId) :
    heardOn (past ++ [o]) conn = heardOn past conn ∨
      ∃ e, o = .event (.receive conn e) ∧
        heardOn (past ++ [o]) conn = heardOn past conn ++ [e] := by
  cases o with
  | drift => exact Or.inl (by simp [heardOn])
  | event event =>
    cases event with
    | receive c e =>
      by_cases hc : c = conn
      · subst hc
        exact Or.inr ⟨e, rfl, by simp [heardOn]⟩
      · exact Or.inl (by simp [heardOn, hc])
    | _ => exact Or.inl (by simp [heardOn])

theorem mem_heardOn {τ : Type} {past : List (Occurrence τ)} {conn : ConnId} {e : Element}
    (h : Occurrence.event (.receive conn e) ∈ past) : e ∈ heardOn past conn :=
  List.mem_filterMap.mpr ⟨_, h, by simp⟩

theorem Node.exists_of_mem_writtenOn {τ : Type} {n : Node τ} {conn : ConnId} {e : Element}
    (h : e ∈ n.writtenOn conn) :
    ∃ batch, Effect.write conn batch true ∈ n.log ∧ e ∈ batch := by
  obtain ⟨effect, heffect, he⟩ := List.mem_flatMap.mp h
  split at he
  · rename_i c batch
    split at he
    · rename_i hc
      subst hc
      exact ⟨batch, heffect, he⟩
    · cases he
  · cases he

theorem Node.writtenOn_prefix {τ : Type} {n m : Node τ} (h : n.log <+: m.log) (conn : ConnId) :
    n.writtenOn conn <+: m.writtenOn conn := by
  obtain ⟨added, hadded⟩ := h
  rw [Node.writtenOn, Node.writtenOn, ← hadded, List.flatMap_append]
  exact List.prefix_append _ _

theorem Node.writtenOn_of_log_write {τ : Type} {n m : Node τ} {c : ConnId} {batch : List Element}
    (hlog : m.log = n.log ++ [.write c batch true]) (conn : ConnId) :
    m.writtenOn conn = n.writtenOn conn ++ if c = conn then batch else [] := by
  rw [Node.writtenOn, hlog, List.flatMap_append, List.flatMap_singleton]
  rfl

section

variable {τ : Type} [Transport τ]

theorem Setup.writtenOn_snoc (setup : Setup τ) (past : List (Occurrence τ)) (o : Occurrence τ)
    (conn : ConnId) :
    (setup.after past).writtenOn conn <+: (setup.after (past ++ [o])).writtenOn conn :=
  Node.writtenOn_prefix (setup.log_append past [o]) conn

/-- On a connection that peers opened, a verdict on a key is written only as the answer to a
question that was heard there. -/
theorem Setup.exists_question (setup : Setup τ) {past : List (Occurrence τ)} {x : ConnId}
    {e : Element} {text : String}
    (hinbound : ∀ k < (setup.after past).sessions.length, ((setup.after past).session k).conn = x →
      ((setup.after past).session k).role = .inbound)
    (hwritten : e ∈ (setup.after past).writtenOn x)
    (hkind : DialbackKind.of? e = some .verify) (htype : e.attr? "type" = some text) :
    ∃ question ∈ heardOn past x, setup.directory.Answers question e := by
  obtain ⟨batch, hwrite, he⟩ := Node.exists_of_mem_writtenOn hwritten
  obtain ⟨before, event, rest, n, k, heq, hbefore, hlater, hconn, hsays⟩ :=
    setup.exists_writing hwrite
  have hdirectory : n.directory = setup.directory :=
    (Node.Moves.directory_eq hbefore).trans (setup.directory_after before)
  have hsaid := hsays e he
  generalize hcause : (setup.after before).cause event = c at hsaid
  cases hsaid with
  | waiting _ hwaiting =>
    obtain ⟨_, _, _, _, _, _, -, -, hrequest⟩ := setup.exists_asked_of_moves hbefore hwaiting
    rw [hrequest, Stanza.type_verifyRequest] at htype
    cases htype
  | key p id secret =>
    rw [Stanza.of?_key] at hkind
    cases hkind
  | utterance _ hutterance =>
    cases hutterance with
    | complaint _ condition =>
      rw [Stanza.of?_streamError] at hkind
      cases hkind
    | refusal _ heard pair condition =>
      rw [Stanza.of?_resultReply] at hkind
      cases hkind
    | verdict r _ heard p id verdict =>
      rw [Stanza.of?_resultReply] at hkind
      cases hkind
    | answer _ question recipient sender id pair hverify huntyped hto hfrom hid hpair =>
      obtain ⟨conn, hevent, hfind⟩ := Node.exists_of_cause_eq_heard hcause
      obtain ⟨hk, hlive⟩ := (setup.wellFormed_after before).live conn k hfind
      have hsame : conn = x := by
        rw [← hlive, ← hconn]
        exact (Session.conn_eq (Node.Moves.identity_eq hbefore hk)).symm
      have hmem : Occurrence.event (.receive x question) ∈ past := by
        rw [heq, hevent, hsame]
        simp
      rw [hpair, hdirectory]
      exact ⟨question, mem_heardOn hmem, .intro recipient sender id hverify huntyped hto hfrom hid⟩
    | traffic _ pair stanza hroute =>
      obtain ⟨-, hkey, -⟩ := Node.of_route? hroute
      obtain ⟨houtbound, opened, hopened, -⟩ :=
        (Node.Moves.bound hbefore (setup.bound_after before)).outgoing pair k hkey
      obtain ⟨hlt, hidentity, -⟩ := setup.kept_after hlater rest (Node.lt_length_of_pair hopened)
      rw [← heq] at hlt hidentity
      have hrole := hinbound k hlt ((Session.conn_eq hidentity).trans hconn)
      rw [Session.role_eq hidentity, houtbound] at hrole
      cases hrole

/-- A question that was written was put for a cause, or a caller sent it and it was written then. -/
theorem Setup.exists_asking_or_send (setup : Setup τ) {past : List (Occurrence τ)} {r : ConnId}
    {e : Element}
    (hwritten : e ∈ (setup.after past).writtenOn r)
    (hkind : DialbackKind.of? e = some .verify) (htype : e.attr? "type" = none) :
    (∃ before event rest p id key, past = before ++ .event event :: rest ∧
      Node.Asks (setup.after before) p id key ((setup.after before).cause event) ∧
      e = Stanza.verifyRequest p.own p.peer id key) ∨
    ∃ before pair rest, past = before ++ .event (.send pair e) :: rest ∧
      (setup.after (before ++ [.event (.send pair e)])).writtenOn r =
        (setup.after before).writtenOn r ++ [e] := by
  obtain ⟨batch, hwrite, he⟩ := Node.exists_of_mem_writtenOn hwritten
  obtain ⟨before, event, rest, n, k, heq, hnot, hnew, hbefore, hlater, hconn, hsays⟩ :=
    setup.exists_first_writing hwrite
  have hsaid := hsays e he
  generalize hcause : (setup.after before).cause event = c at hsaid
  cases hsaid with
  | waiting _ hwaiting =>
    obtain ⟨earlier, asking, later, p, id, key, hsplit, hasks, hrequest⟩ :=
      setup.exists_asked_of_moves hbefore hwaiting
    refine Or.inl ⟨earlier, asking, later ++ rest, p, id, key, ?_, hasks, hrequest⟩
    have hwhole : past = (before ++ [.event event]) ++ rest := by simp [heq]
    rw [hwhole, hsplit]
    simp
  | key p id secret =>
    rw [Stanza.of?_key] at hkind
    cases hkind
  | utterance _ hutterance =>
    obtain ⟨pair, hcall, -⟩ := hutterance.exists_send (by rw [hkind]; rfl) htype
    rw [hcall] at hcause
    obtain rfl := Node.eq_of_cause_eq_call hcause
    refine Or.inr ⟨before, pair, rest, heq, ?_⟩
    rw [after_snoc] at hnew ⊢
    have hlog := Node.log_send_of_mem hnot hnew
    have hthen := Node.writtenOn_of_log_write hlog r
    rw [if_pos rfl] at hthen
    exact hthen

end

end Federation
