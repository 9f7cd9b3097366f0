import Federation.Proofs.Node.Bound
import Federation.Proofs.Node.Decomposition
import Mathlib.Data.List.Induction

/-!
Histories of a node from its start. Between two events the surroundings may change on their own: a
transport may lose connections, and others may keep or drop sessions.

What holds at the end of a history and not at its start began to hold at some event, for the last
time, and at one move of that event.
-/

namespace Federation

structure Setup (τ : Type) where
  settings : Settings
  directory : Directory
  transport : τ
  issued : Nat
  identify : Nat → String := identifierText

inductive Occurrence (τ : Type) where
  | event (event : Event)
  | drift (transport : τ) (pinned : List SessionKey)

namespace Node

variable {τ : Type}

/-- What a node hears, it hears on a connection that is there. -/
theorem exists_of_cause_eq_heard {n : Node τ} {event : Event} {k : SessionKey} {stanza : Element}
    (h : n.cause event = .heard k stanza) :
    ∃ conn, event = .receive conn stanza ∧ n.find? conn = some k := by
  unfold cause at h
  split at h
  · split at h <;> cases h
  · split at h
    · rename_i hfind
      cases h
      exact ⟨_, rfl, hfind⟩
    · cases h
  · cases h

theorem exists_of_cause_eq_header {n : Node τ} {event : Event} {k : SessionKey}
    {header : StreamHeader} (h : n.cause event = .header k header) :
    ∃ conn, event = .streamOpened conn header ∧ n.find? conn = some k := by
  unfold cause at h
  split at h
  · split at h
    · rename_i hfind
      cases h
      exact ⟨_, rfl, hfind⟩
    · cases h
  · split at h <;> cases h
  · cases h

theorem eq_of_cause_eq_call {n : Node τ} {event call : Event} (h : n.cause event = .call call) :
    event = call := by
  unfold cause at h
  split at h
  · split at h <;> cases h
    rfl
  · split at h <;> cases h
    rfl
  · cases h
    rfl

variable [Transport τ]

/-- A question that is put during an event was due when the event began. -/
theorem Asks.before {n m : Node τ} (hlive : n.WellFormed) {event : Event}
    (h : Moves (n.cause event) n m) {p : DomainPair} {id key : String}
    (hasks : Asks m p id key (n.cause event)) : Asks n p id key (n.cause event) := by
  generalize hcause : n.cause event = c at h hasks ⊢
  cases hasks with
  | caller pair hcheck => exact .caller pair (by rwa [← h.directory_eq])
  | presented k stanza hk hkind htype hnamed hid hkey hblank =>
    obtain ⟨conn, -, hfind⟩ := exists_of_cause_eq_heard hcause
    have hlt := (hlive.live conn k hfind).1
    have hstream : (m.session k).streamId = (n.session k).streamId :=
      Session.streamId_eq (h.identity_eq hlt)
    exact .presented k stanza hlt hkind htype (by rwa [← h.directory_eq]) (hstream.symm.trans hid)
      hkey hblank

theorem Moves.pair_eq {n m : Node τ} {c : Cause} (h : Moves c n m) {k : SessionKey}
    {pair : DomainPair} (hrole : (n.session k).role = .outbound)
    (hpair : (n.session k).pair = some pair) :
    (m.session k).role = .outbound ∧ (m.session k).pair = some pair :=
  h.kept (P := fun n => (n.session k).role = .outbound ∧ (n.session k).pair = some pair)
    (fun hmove hn => hmove.pair_eq hn.1 hn.2) ⟨hrole, hpair⟩

/-- What begins to hold during some moves begins to hold at one of them. -/
theorem Moves.exists_move {P : Node τ → Prop} {n m : Node τ} {c : Cause} (h : Moves c n m)
    (hn : ¬ P n) (hm : P m) :
    ∃ n' m', Moves c n n' ∧ Move c n' m' ∧ Moves c m' m ∧ ¬ P n' ∧ P m' := by
  induction h with
  | refl => exact absurd hm hn
  | tail hmoves hmove ih =>
    rename_i b d
    by_cases hb : P b
    · obtain ⟨n', m', hbefore, hmid, hafter, hnot, hyes⟩ := ih hb
      exact ⟨n', m', hbefore, hmid, hafter.tail hmove, hnot, hyes⟩
    · exact ⟨b, d, hmoves, hmove, .refl, hb, hm⟩

end Node

def Occurrence.act {τ : Type} [Transport τ] (chain : Chain τ) (n : Node τ) : Occurrence τ → Node τ
  | .event call => n.step chain call
  | .drift transport pinned => { n with transport := transport, pinned := pinned }

namespace Setup

variable {τ : Type} [Transport τ] (setup : Setup τ)

def chain : Chain τ :=
  Chain.standard setup.settings

def next (n : Node τ) : Occurrence τ → Node τ
  | .event event => n.step setup.chain event
  | .drift transport pinned => { n with transport := transport, pinned := pinned }

theorem next_event (n : Node τ) (event : Event) :
    setup.next n (.event event) = n.step setup.chain event := rfl

def start : Node τ :=
  .create setup.settings setup.directory setup.transport setup.issued setup.identify

omit [Transport τ] in
@[simp] theorem session_start (k : SessionKey) : setup.start.session k = default :=
  Node.session_create _ _ _ _ _ k

/-- The node after what happened in the past, the oldest first. -/
def after (past : List (Occurrence τ)) : Node τ :=
  past.foldl setup.next setup.start

/-- With the processors in their order, a history can be computed. -/
theorem next_eq_act : setup.next = Occurrence.act
    [.streamError, .dialback setup.settings.authTimeout setup.settings.workaround] := by
  funext n o
  cases o with
  | event event => rw [next_event, chain, Node.standard_eq, Occurrence.act]
  | drift transport pinned => rfl

theorem after_eq_foldl (past : List (Occurrence τ)) :
    setup.after past = past.foldl (Occurrence.act
        [.streamError, .dialback setup.settings.authTimeout setup.settings.workaround])
      setup.start := by
  rw [after, next_eq_act]

theorem after_snoc (past : List (Occurrence τ)) (o : Occurrence τ) :
    setup.after (past ++ [o]) = setup.next (setup.after past) o := by
  simp [after]

theorem wellFormed_after (past : List (Occurrence τ)) : (setup.after past).WellFormed := by
  induction past using List.reverseRecOn with
  | nil =>
    refine ⟨fun p hp => ?_, fun conn k hfind => ?_⟩
    · cases hp
    · cases hfind
  | append_singleton past o ih =>
    rw [after_snoc]
    cases o with
    | event event => exact (Node.step_moves ih setup.settings event).wellFormed ih
    | drift transport pinned => exact ⟨ih.entries, ih.live⟩

/-- Every event is a sequence of moves. -/
theorem moves_event (past : List (Occurrence τ)) (event : Event) :
    Node.Moves ((setup.after past).cause event) (setup.after past)
      ((setup.after past).step setup.chain event) :=
  Node.step_moves (setup.wellFormed_after past) setup.settings event

/-- What moves keep, and the surroundings on their own do not end, holds from then on. -/
theorem kept_append {P : Node τ → Prop}
    (hmoves : ∀ {c n m}, Node.Moves c n m → P n → P m)
    (hdrift : ∀ n transport pinned, P n → P { n with transport := transport, pinned := pinned })
    {past : List (Occurrence τ)} (rest : List (Occurrence τ)) (h : P (setup.after past)) :
    P (setup.after (past ++ rest)) := by
  induction rest using List.reverseRecOn with
  | nil => rwa [List.append_nil]
  | append_singleton rest o ih =>
    rw [← List.append_assoc, after_snoc]
    cases o with
    | drift transport pinned => exact hdrift _ transport pinned ih
    | event event => exact hmoves (setup.moves_event (past ++ rest) event) ih

/-- What the start satisfies and every move keeps holds always. -/
theorem invariant {P : Node τ → Prop} (hstart : P setup.start)
    (hmove : ∀ {c n m}, Node.Move c n m → P n → P m)
    (hdrift : ∀ n transport pinned, P n → P { n with transport := transport, pinned := pinned })
    (past : List (Occurrence τ)) : P (setup.after past) := by
  have hfirst : P (setup.after []) := hstart
  exact setup.kept_append (fun hmoves hn => hmoves.kept hmove hn) hdrift past hfirst

theorem bound_after (past : List (Occurrence τ)) : (setup.after past).Bound :=
  setup.invariant (Node.bound_create _ _ _ _ _) (fun hmove hn => hmove.bound hn)
    (fun _ _ _ hn => ⟨hn.opened, hn.keys, hn.verifies, hn.incoming, hn.outgoing⟩) past

/-- Sessions are only added, and stay the ones they are. -/
theorem identity_append (past rest : List (Occurrence τ)) {k : SessionKey}
    (hk : k < (setup.after past).sessions.length) :
    k < (setup.after (past ++ rest)).sessions.length ∧
      ((setup.after (past ++ rest)).session k).identity =
        ((setup.after past).session k).identity := by
  refine setup.kept_append (P := fun n => k < n.sessions.length ∧
    (n.session k).identity = ((setup.after past).session k).identity) ?_ (fun _ _ _ hn => hn) rest
    ⟨hk, rfl⟩
  rintro c n m hmoves ⟨hlt, hsame⟩
  exact ⟨Nat.lt_of_lt_of_le hlt hmoves.length_le, (hmoves.identity_eq hlt).trans hsame⟩

/-- So what tells sessions apart is only added to. -/
theorem map_sessions_prefix {γ : Type} (view : Session → γ)
    (hview : ∀ {s t : Session}, s.identity = t.identity → view s = view t)
    {before past : List (Occurrence τ)} (h : before <+: past) :
    (setup.after before).sessions.map view <+: (setup.after past).sessions.map view := by
  obtain ⟨rest, rfl⟩ := h
  have hkept : ∀ k < (setup.after before).sessions.length,
      k < (setup.after (before ++ rest)).sessions.length ∧
        view ((setup.after before).session k) = view ((setup.after (before ++ rest)).session k) :=
    fun k hk => (setup.identity_append before rest hk).imp id fun hsame => (hview hsame).symm
  refine List.prefix_iff_getElem.mpr ⟨?_, fun k hk => ?_⟩
  · by_contra hlong
    rw [List.length_map, List.length_map, Nat.not_le] at hlong
    exact absurd (hkept _ hlong).1 (Nat.lt_irrefl _)
  · have hlt : k < (setup.after before).sessions.length := by simpa using hk
    obtain ⟨hlt', hsame⟩ := hkept k hlt
    simpa [Node.session, hlt, hlt'] using hsame

/-- The log only grows. -/
theorem log_append (past rest : List (Occurrence τ)) :
    (setup.after past).log <+: (setup.after (past ++ rest)).log := by
  refine setup.kept_append (P := fun n => (setup.after past).log <+: n.log) ?_ (fun _ _ _ hn => hn)
    rest (List.prefix_refl _)
  intro c n m hmoves hgrown
  obtain ⟨added, hlog, -⟩ := hmoves.exists_added
  exact hgrown.trans ⟨added, hlog.symm⟩

theorem pair_append (past rest : List (Occurrence τ)) {k : SessionKey} {pair : DomainPair}
    (hrole : ((setup.after past).session k).role = .outbound)
    (hpair : ((setup.after past).session k).pair = some pair) :
    ((setup.after (past ++ rest)).session k).role = .outbound ∧
      ((setup.after (past ++ rest)).session k).pair = some pair :=
  setup.kept_append (P := fun n => (n.session k).role = .outbound ∧ (n.session k).pair = some pair)
    (fun hmoves hn => hmoves.pair_eq hn.1 hn.2) (fun _ _ _ hn => hn) rest ⟨hrole, hpair⟩

/-- What a session is in the middle of an event, and the pair of one that we opened, it keeps. -/
theorem kept_after {before : List (Occurrence τ)} {event : Event} {n : Node τ} {c : Cause}
    (h : Node.Moves c n (setup.after (before ++ [.event event]))) (rest : List (Occurrence τ))
    {k : SessionKey} (hk : k < n.sessions.length) :
    k < (setup.after (before ++ .event event :: rest)).sessions.length ∧
      ((setup.after (before ++ .event event :: rest)).session k).identity =
        (n.session k).identity ∧
      ∀ {pair : DomainPair}, (n.session k).role = .outbound → (n.session k).pair = some pair →
        ((setup.after (before ++ .event event :: rest)).session k).pair = some pair := by
  have hsplit : before ++ .event event :: rest = (before ++ [.event event]) ++ rest := by simp
  obtain ⟨hlt, hidentity⟩ :=
    setup.identity_append _ rest (Nat.lt_of_lt_of_le hk (Node.Moves.length_le h))
  rw [hsplit]
  refine ⟨hlt, hidentity.trans (Node.Moves.identity_eq h hk), ?_⟩
  intro pair hrole hpair
  obtain ⟨hrole', hpair'⟩ := Node.Moves.pair_eq h hrole hpair
  exact (setup.pair_append _ rest hrole' hpair').2

theorem directory_after (past : List (Occurrence τ)) :
    (setup.after past).directory = setup.directory :=
  setup.invariant (P := fun n => n.directory = setup.directory) rfl
    (fun hmove hn => hmove.directory_eq.trans hn) (fun _ _ _ hn => hn) past

/-- What holds now and did not at the start has held since some event. -/
theorem exists_since {P : Node τ → Prop} (hstart : ¬ P setup.start)
    (hdrift : ∀ n transport pinned, P { n with transport := transport, pinned := pinned } → P n)
    {past : List (Occurrence τ)} (h : P (setup.after past)) :
    ∃ before event rest, past = before ++ .event event :: rest ∧ ¬ P (setup.after before) ∧
      ∀ mid, mid <+: rest → P (setup.after (before ++ .event event :: mid)) := by
  induction past using List.reverseRecOn with
  | nil => exact absurd h hstart
  | append_singleton past o ih =>
    by_cases hpast : P (setup.after past)
    · obtain ⟨before, event, rest, heq, hnot, hsince⟩ := ih hpast
      subst heq
      refine ⟨before, event, rest ++ [o], by simp, hnot, ?_⟩
      intro mid hmid
      rcases List.prefix_concat_iff.mp hmid with hwhole | hproper
      · subst hwhole
        simpa using h
      · exact hsince mid hproper
    · cases o with
      | drift transport pinned =>
        rw [after_snoc] at h
        exact absurd (hdrift _ transport pinned h) hpast
      | event event =>
        refine ⟨past, event, [], rfl, hpast, ?_⟩
        intro mid hmid
        rw [List.prefix_nil.mp hmid]
        exact h

/-- What holds of a session now and not of a new one began to hold at some event. -/
theorem exists_event {Q : Session → Prop} (hdefault : ¬ Q default) {past : List (Occurrence τ)}
    {k : SessionKey} (h : Q ((setup.after past).session k)) :
    ∃ before event rest, past = before ++ .event event :: rest ∧
      ¬ Q ((setup.after before).session k) ∧
      Q (((setup.after before).step setup.chain event).session k) ∧
      ∀ mid, mid <+: rest → Q ((setup.after (before ++ .event event :: mid)).session k) := by
  have hstart : ¬ Q (setup.start.session k) := by
    rw [session_start]
    exact hdefault
  obtain ⟨before, event, rest, heq, hnot, hsince⟩ := setup.exists_since
    (P := fun n => Q (n.session k)) hstart (fun _ _ _ hn => hn) h
  have hafter := hsince [] List.nil_prefix
  rw [after_snoc] at hafter
  exact ⟨before, event, rest, heq, hnot, hafter, hsince⟩

end Setup

end Federation
