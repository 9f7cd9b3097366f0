import Federation.Proofs.Domain.Addressing
import Federation.Proofs.Node.Confinement
import Federation.Proofs.Trust.Authority

/-!
The answer to the stream header of a peer. It begins with our own header in any case. Either the
addressing of the peer does not hold: then one stream error follows, the connection is torn down and
nothing of the header is kept. Or it holds: then at most the features follow, and the session takes
the pair that the header names, if it names both sides. Nothing is written through the transport.
-/

namespace Federation

namespace StreamHeader

variable {isServed : String → Bool} {header : StreamHeader}

/-- What is wrong with the addressing of a header. A recipient that is not served is wrong in the
spelling of the header, whatever the sender is. -/
inductive Misaddressed (isServed : String → Bool) (header : StreamHeader) : DomainError → Prop
  | unserved {recipient : String} (hto : header.recipient = some recipient)
      (hserved : isServed (Text.lower (Domain.part recipient)) = false) :
      Misaddressed isServed header (.notLocal (Domain.part recipient))
  | invalid {recipient sender : String} {e : DomainError} (hto : header.recipient = some recipient)
      (hfrom : header.sender = some sender)
      (hchecked : DomainPair.checked (Domain.part recipient) (Domain.part sender) isServed =
        .error e) :
      Misaddressed isServed header e

inductive Names (isServed : String → Bool) (header : StreamHeader) : Option DomainPair → Prop
  | pair {recipient sender : String} {pair : DomainPair} (hto : header.recipient = some recipient)
      (hfrom : header.sender = some sender)
      (hchecked : DomainPair.checked (Domain.part recipient) (Domain.part sender) isServed =
        .ok pair) :
      Names isServed header (some pair)
  | nothing (h : header.recipient = none ∨ header.sender = none) : Names isServed header none

/-- A pair that is named is one of an own domain and another one, both in canonical form. -/
theorem Names.isCanonical {pair : DomainPair} (h : header.Names isServed (some pair)) :
    pair.IsCanonical isServed ∧ pair.own ≠ pair.peer := by
  cases h with
  | pair hto hfrom hchecked =>
    obtain ⟨-, -, hserved, hforeign⟩ := DomainPair.checked_eq_ok_iff.mp hchecked
    refine ⟨DomainPair.isCanonical_of_checked hchecked, fun hsame => hforeign ?_⟩
    rwa [← hsame]

/-- Whatever is wrong with the addressing, the peer is told one of two conditions. -/
theorem condition_mem (e : DomainError) :
    (TrustError.domain e).condition ∈ ["host-unknown", "invalid-from"] := by
  cases e <;> simp [TrustError.condition]

end StreamHeader

namespace Node

variable {τ : Type}

/-- A header is refused for what is wrong with it, or taken for what it names. -/
theorem headerPair_cases (n : Node τ) (header : StreamHeader) :
    (∃ e, n.headerPair header = .error e ∧ header.Misaddressed n.directory.isServed e) ∨
      ∃ named, n.headerPair header = .ok named ∧ header.Names n.directory.isServed named := by
  unfold headerPair
  cases hto : header.recipient with
  | none => exact Or.inr ⟨none, rfl, .nothing (Or.inl hto)⟩
  | some recipient =>
    by_cases hserved : n.directory.isServed (Text.lower (Domain.part recipient))
    · cases hfrom : header.sender with
      | none => exact Or.inr ⟨none, by simp [hserved], .nothing (Or.inr hfrom)⟩
      | some sender =>
        cases hchecked : DomainPair.checked (Domain.part recipient) (Domain.part sender)
            n.directory.isServed with
        | error e =>
          exact Or.inl ⟨e, by simp [hserved, hchecked, Except.map], .invalid hto hfrom hchecked⟩
        | ok pair =>
          exact Or.inr ⟨some pair, by simp [hserved, hchecked, Except.map],
            .pair hto hfrom hchecked⟩
    · have hnot : n.directory.isServed (Text.lower (Domain.part recipient)) = false := by
        simpa using hserved
      exact Or.inl ⟨_, by simp [hnot], .unserved hto hnot⟩

theorem misaddressed_of_headerPair {n : Node τ} {header : StreamHeader} {e : DomainError}
    (h : n.headerPair header = .error e) : header.Misaddressed n.directory.isServed e := by
  rcases n.headerPair_cases header with ⟨other, hother, hwrong⟩ | ⟨named, hnamed, -⟩
  · rw [h] at hother
    cases hother
    exact hwrong
  · rw [h] at hnamed
    cases hnamed

theorem names_of_headerPair {n : Node τ} {header : StreamHeader} {named : Option DomainPair}
    (h : n.headerPair header = .ok named) : header.Names n.directory.isServed named := by
  rcases n.headerPair_cases header with ⟨e, herror, -⟩ | ⟨other, hother, hnames⟩
  · rw [h] at herror
    cases herror
  · rw [h] at hother
    cases hother
    exact hnames

/-- Whatever is wrong with a header, it is refused, if perhaps for something else. -/
theorem error_of_misaddressed {n : Node τ} {header : StreamHeader} {e : DomainError}
    (h : header.Misaddressed n.directory.isServed e) :
    ∃ refusal, n.headerPair header = .error refusal := by
  unfold headerPair
  cases h with
  | unserved hto hserved => simp [hto, hserved]
  | @invalid recipient sender e hto hfrom hchecked =>
    by_cases hserved : n.directory.isServed (Text.lower (Domain.part recipient))
    · simp [hto, hfrom, hserved, hchecked, Except.map]
    · simp [hto, hserved]

/-- The header that we answer with: our stream id, the two addresses the other way round and the
version of the peer, whatever of them it announced. -/
def ownHeader (n : Node τ) (k : SessionKey) (header : StreamHeader) : String :=
  Stanza.streamHeader (n.session k).streamId (header.recipient.map Domain.part)
    (header.sender.map Domain.part) header.version

/-- What follows our header on a stream that we accept: the features, for a peer that announced a
version. Dialback is among them until the session is authenticated. -/
def offer (n : Node τ) (k : SessionKey) (header : StreamHeader) : String :=
  if header.version.isSome then
    (Stanza.streamFeatures
      (if (n.session k).isAuthenticated then [] else [Stanza.dialbackFeature])).toXml
  else ""

def taking (n : Node τ) (k : SessionKey) : Option DomainPair → Node τ
  | some pair => n.alter k (·.setPair pair)
  | none => n

structure TouchesOnly (n m : Node τ) (k : SessionKey) : Prop where
  session : ∀ j ≠ k, m.session j = n.session j
  registry : m.registry = n.registry
  live : m.live = n.live

/-- The stream of a peer is refused: one stream error follows our header, and the connection
is torn down. -/
structure RefusesStream (n m : Node τ) (k : SessionKey) (header : StreamHeader) (text : String) :
    Prop where
  text : ∃ condition ∈ ["host-unknown", "invalid-from"],
    text = n.ownHeader k header ++ (Stanza.streamError condition).toXml
  closing : (m.session k).isClosing
  pair : (m.session k).pair = (n.session k).pair
  log : m.log = n.log ++ [.stop (n.session k).conn false]

/-- The stream of a peer is accepted: at most the features follow our header, and the session takes
the pair that the header names. -/
structure AdmitsStream (n m : Node τ) (k : SessionKey) (header : StreamHeader) (text : String) :
    Prop where
  text : text = n.ownHeader k header ++ n.offer k header
  opened : (m.session k).isClosing = false
  pair : ∃ named, header.Names n.directory.isServed named ∧
    (m.session k).pair = named.or (n.session k).pair
  log : m.log = n.log

section Inbound

variable [Transport τ] {n : Node τ} {k : SessionKey} (settings : Settings)
  (hrole : (n.session k).role = .inbound) (header : StreamHeader)

include hrole

/-- To a peer that opened the connection dialback is offered until it is authenticated. -/
theorem features_inbound :
    (Chain.standard settings).features n k =
      if (n.session k).isAuthenticated then [] else [Stanza.dialbackFeature] := by
  rw [standard_eq]
  cases hauth : (n.session k).isAuthenticated <;>
    simp [Chain.features, Processor.streamError, Processor.dialback, hrole, hauth]

theorem chain_streamOpened_inbound :
    (Chain.standard settings).streamOpened n k header =
      ("", n.alter k (·.setPhase .awaitingKey)) := by
  rw [standard_eq]
  simp [Chain.streamOpened, Processor.streamError, Processor.dialback, hrole]

variable {header} {conn : ConnId} (hfind : n.find? conn = some k)

include hfind

theorem streamOpened_of_error {e : DomainError} (h : n.headerPair header = .error e) :
    n.streamOpened (Chain.standard settings) conn header =
      (some (n.ownHeader k header ++ (Stanza.streamError (TrustError.domain e).condition).toXml),
        n.stop k false) := by
  simp only [streamOpened, hfind, hrole, answerHeader, h]
  rfl

theorem streamOpened_of_named {named : Option DomainPair} (h : n.headerPair header = .ok named) :
    n.streamOpened (Chain.standard settings) conn header =
      (some (n.ownHeader k header ++ n.offer k header),
        (n.taking k named).alter k (·.setPhase .awaitingKey)) := by
  have hview : ∀ {α : Type} (view : Session → α), (∀ pair s, view (s.setPair pair) = view s) →
      view ((n.taking k named).session k) = view (n.session k) := by
    intro α view hpair
    cases named with
    | none => rfl
    | some pair => exact view_session_alter view (hpair pair) n k k
  have hrole' := (hview Session.role fun _ _ => rfl).trans hrole
  have hauth := hview Session.isAuthenticated fun _ _ => rfl
  -- The features are asked for after the pair was taken, on which they do not depend.
  have hanswer : n.answerHeader (Chain.standard settings) k header =
      (n.ownHeader k header ++ n.offer k header, none, n.taking k named) := by
    have hoffer := features_inbound settings hrole'
    rw [hauth] at hoffer
    simp only [answerHeader, h, offer]
    cases hversion : header.version with
    | none => cases named <;> simp [ownHeader, taking, hversion]
    | some version =>
      rw [← hoffer]
      cases named <;> simp [ownHeader, taking, hversion]
  simp only [streamOpened, hfind, hrole, hanswer, chain_streamOpened_inbound settings hrole' header,
    String.append_empty]

theorem refuses_of_error (hk : k < n.sessions.length) (hopen : (n.session k).isClosing = false)
    {e : DomainError} (h : n.headerPair header = .error e) :
    ∃ text m, n.streamOpened (Chain.standard settings) conn header = (some text, m) ∧
      RefusesStream n m k header text ∧ TouchesOnly n m k := by
  have hstop : n.stop k false = (n.alter k Session.beginClose).halt (n.session k).conn false := by
    rw [stop, hopen]
    rfl
  have hclosed : (n.stop k false).session k = (n.session k).beginClose := by
    rw [session_stop, if_pos ⟨rfl, hk, hopen⟩]
  refine ⟨_, _, streamOpened_of_error settings hrole hfind h, ⟨⟨_, ?_, rfl⟩, ?_, ?_, ?_⟩,
    fun j hj => ?_, registry_stop n k false, live_stop n k false⟩
  · exact StreamHeader.condition_mem e
  · rw [hclosed]
    rfl
  · rw [hclosed]
    rfl
  · rw [hstop]
    rfl
  · rw [session_stop, if_neg fun h => hj h.1]

theorem admits_of_named (hk : k < n.sessions.length) (hopen : (n.session k).isClosing = false)
    {named : Option DomainPair} (h : n.headerPair header = .ok named) :
    ∃ text m, n.streamOpened (Chain.standard settings) conn header = (some text, m) ∧
      AdmitsStream n m k header text ∧ TouchesOnly n m k := by
  have htaken : (n.taking k named).session k =
      { n.session k with pair := named.or (n.session k).pair } := by
    cases named with
    | none => rfl
    | some pair => exact session_alter_self hk _
  have hphase : ∀ {α : Type} (view : Session → α), (∀ s phase, view (s.setPhase phase) = view s) →
      ∀ m : Node τ, view ((m.alter k (·.setPhase .awaitingKey)).session k) = view (m.session k) :=
    fun view hview m => view_session_alter view (fun s => hview s _) m k k
  refine ⟨_, _, streamOpened_of_named settings hrole hfind h,
    ⟨rfl, ?_, ⟨named, names_of_headerPair h, ?_⟩, ?_⟩, fun j hj => ?_, ?_, ?_⟩
  · rw [hphase Session.isClosing fun s phase => by rw [Session.setPhase_eq], htaken]
    exact hopen
  · rw [hphase Session.pair fun s phase => by rw [Session.setPhase_eq], htaken]
  · cases named <;> rfl
  · rw [session_alter_of_ne _ hj]
    cases named with
    | none => rfl
    | some pair => exact session_alter_of_ne n hj _
  · cases named <;> rfl
  · cases named <;> rfl

end Inbound

variable [Transport τ] {n m : Node τ}

/-- While a header is acted on, a session comes to a pair only by the header naming it. -/
theorem Change.pair_of_header {k j : SessionKey} {header : StreamHeader} {s : Session}
    (h : Change n m (.header k header) j s) {pair : DomainPair} (hpair : s.pair = some pair) :
    (n.session j).pair = some pair ∨ j = k ∧ n.headerPair header = .ok (some pair) := by
  cases h with
  | remark f hremark =>
    cases hremark with
    | phase phase =>
      exact Or.inl ((Session.view_setPhase Session.pair (fun _ _ => rfl) phase _).symm.trans hpair)
    | headerPair _ other hrole hnamed =>
      obtain rfl : other = pair := Option.some.inj hpair
      exact Or.inr ⟨rfl, hnamed⟩
    | _ => exact Or.inl hpair
  | granted base q hgrants hbase =>
    exact Or.inl ((Session.granted_of_eq hbase).pair.symm.trans hpair)
  | accepted conn address hk hcall => cases hcall
  | opened conn p relayFor hk hopens =>
    cases hopens with
    | relay id key hasks => cases hasks
  | _ => exact Or.inl hpair

theorem Moves.pair_of_header {k : SessionKey} {header : StreamHeader}
    (h : Moves (.header k header) n m) {j : SessionKey} {pair : DomainPair}
    (hpair : (m.session j).pair = some pair) :
    (n.session j).pair = some pair ∨
      j = k ∧ header.Names n.directory.isServed (some pair) := by
  induction h with
  | refl => exact Or.inl hpair
  | @tail b d hmoves hmove ih =>
    rcases (hmove.change j).pair_of_header hpair with hold | ⟨hj, hnamed⟩
    · exact ih hold
    · have hnames := names_of_headerPair hnamed
      rw [Moves.directory_eq hmoves] at hnames
      exact Or.inr ⟨hj, hnames⟩

end Node

namespace Setup

variable {τ : Type} [Transport τ] (setup : Setup τ)

/-- On an inbound connection that is not being torn down a stream header is answered in one of two
ways, and nothing is written through the transport. Just if its addressing does not hold, our header
is followed by one stream error, the connection is torn down and the session keeps the pair that it
had. Otherwise at most the features follow, and the session takes the pair that the header names.
Whatever the connection, no header makes a session take a pair that is not canonical. -/
theorem answer_to_stream_header (past : List (Occurrence τ)) :
    let n := setup.after past
    (∀ conn k header, n.find? conn = some k → (n.session k).role = .inbound →
      (n.session k).isClosing = false →
      ∃ text m, n.streamOpened setup.chain conn header = (some text, m) ∧
        ((∃ e, header.Misaddressed setup.directory.isServed e) →
          n.RefusesStream m k header text) ∧
        ((∀ e, ¬ header.Misaddressed setup.directory.isServed e) →
          n.AdmitsStream m k header text) ∧
        n.TouchesOnly m k) ∧
    ∀ conn header j pair,
      ((setup.after (past ++ [.event (.streamOpened conn header)])).session j).pair = some pair →
      (n.session j).pair = some pair ∨
        n.find? conn = some j ∧ header.Names setup.directory.isServed (some pair) ∧
          pair.IsCanonical setup.directory.isServed ∧ pair.own ≠ pair.peer := by
  intro n
  have hdirectory := setup.directory_after past
  refine ⟨fun conn k header hfind hrole hopen => ?_, fun conn header j pair hpair => ?_⟩
  · obtain ⟨hk, -⟩ := (setup.wellFormed_after past).live conn k hfind
    rw [← hdirectory]
    cases hnamed : n.headerPair header with
    | error e =>
      obtain ⟨text, m, hanswer, hrefuses, htouches⟩ :=
        Node.refuses_of_error setup.settings hrole hfind hk hopen hnamed
      refine ⟨text, m, hanswer, fun _ => hrefuses, fun hwell => ?_, htouches⟩
      exact absurd (Node.misaddressed_of_headerPair hnamed) (hwell e)
    | ok named =>
      obtain ⟨text, m, hanswer, hadmits, htouches⟩ :=
        Node.admits_of_named setup.settings hrole hfind hk hopen hnamed
      refine ⟨text, m, hanswer, fun ⟨e, he⟩ => ?_, fun _ => hadmits, htouches⟩
      obtain ⟨refusal, herror⟩ := Node.error_of_misaddressed he
      rw [hnamed] at herror
      cases herror
  · have hmoves := setup.moves_event past (.streamOpened conn header)
    rw [after_snoc, next_event] at hpair
    cases hfind : (setup.after past).find? conn with
    | none =>
      simp only [Node.step, Node.streamOpened, hfind] at hpair
      exact Or.inl hpair
    | some k =>
      have hcause : (setup.after past).cause (.streamOpened conn header) = .header k header := by
        simp only [Node.cause, hfind]
      rw [hcause] at hmoves
      rcases Node.Moves.pair_of_header hmoves hpair with hold | ⟨rfl, hnames⟩
      · exact Or.inl hold
      · rw [hdirectory] at hnames
        exact Or.inr ⟨rfl, hnames, hnames.isCanonical⟩

/-- On a new connection a header to a domain of ours is accepted, in whatever case it is spelled,
and one to a foreign domain is refused. -/
theorem answer_to_stream_header_of_new_connection :
    let n := served.after [.event (.accept ⟨1⟩ "192.0.2.1")]
    let ours : StreamHeader :=
      { recipient := some "B.example", sender := some "a.example", version := some "1.0" }
    let foreign : StreamHeader := { recipient := some "c.example", sender := some "a.example" }
    (n.find? ⟨1⟩ = some 0 ∧ (n.session 0).role = .inbound ∧ (n.session 0).isClosing = false) ∧
      (∃ text m, n.streamOpened served.chain ⟨1⟩ ours = (some text, m) ∧
        n.AdmitsStream m 0 ours text) ∧
      ∃ text m, n.streamOpened served.chain ⟨1⟩ foreign = (some text, m) ∧
        n.RefusesStream m 0 foreign text := by
  intro n ours foreign
  have hrun : n.find? ⟨1⟩ = some 0 ∧ (n.session 0).role = .inbound ∧
      (n.session 0).isClosing = false ∧
      n.headerPair ours = .ok (some ⟨"b.example", "a.example"⟩) := by
    simp only [n]
    rw [after_eq_foldl]
    decide +kernel
  obtain ⟨hfind, hrole, hopen, hnamed⟩ := hrun
  obtain ⟨hanswers, -⟩ := served.answer_to_stream_header [.event (.accept ⟨1⟩ "192.0.2.1")]
  refine ⟨⟨hfind, hrole, hopen⟩, ?_, ?_⟩
  · obtain ⟨text, m, hanswer, -, hadmits, -⟩ := hanswers ⟨1⟩ 0 ours hfind hrole hopen
    refine ⟨text, m, hanswer, hadmits fun e he => ?_⟩
    rw [← served.directory_after [.event (.accept ⟨1⟩ "192.0.2.1")]] at he
    obtain ⟨refusal, herror⟩ := Node.error_of_misaddressed he
    cases hnamed.symm.trans herror
  · obtain ⟨text, m, hanswer, hrefuses, -⟩ := hanswers ⟨1⟩ 0 foreign hfind hrole hopen
    exact ⟨text, m, hanswer, hrefuses ⟨_, .unserved rfl (by decide +kernel)⟩⟩

end Setup

end Federation
